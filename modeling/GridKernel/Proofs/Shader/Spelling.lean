import GridKernel.Shader.Printer
import GridKernel.Proofs.Shader.Grammar
import GridKernel.Proofs.Shader.Literals

namespace GridKernel.Shader

-- The first character keeps a mark in front of the text apart from it.
def Spells (level : Level) (text : String) (tree : Tree) : Prop :=
  ∃ tokens, Derives level tokens tree ∧ (∃ c cs, text.toList = c :: cs ∧ joins c = false) ∧
    ∀ rest, Cut inName rest → Yields text.toList tokens rest

theorem Spells.raise {level upper : Level} {text : String} {tree : Tree} (spells : Spells level text tree)
    (up : ∀ ts, Derives level ts tree → Derives upper ts tree) : Spells upper text tree := by
  obtain ⟨tokens, derives, starts, yields⟩ := spells
  exact ⟨tokens, up tokens derives, starts, yields⟩

theorem Derives.in_chain {level : Level} {group : List Operator} (listed : group ∈ level.groups) {ts : List Token} {t : Tree}
    (derives : Derives level.operand ts t) : Derives level ts t := by
  have chain := @Derives.chain level group ts t [] listed derives (by simp) (by simp)
  simpa [written] using chain

theorem Derives.singular {ts : List Token} {t : Tree} (derives : Derives .primary ts t) : Derives .singular ts t := by
  simpa [fieldTokens] using derives.members []

theorem Derives.product {ts : List Token} {t : Tree} (derives : Derives .unary ts t) : Derives .product ts t :=
  in_chain List.mem_cons_self derives

theorem Derives.sum {ts : List Token} {t : Tree} (derives : Derives .product ts t) : Derives .sum ts t :=
  in_chain List.mem_cons_self derives

theorem Derives.expression {ts : List Token} {t : Tree} (derives : Derives .comparison ts t) : Derives .expression ts t :=
  in_chain List.mem_cons_self derives

theorem Spells.singular {text : String} {tree : Tree} (spells : Spells .primary text tree) : Spells .singular text tree :=
  spells.raise fun _ derives => derives.singular

theorem Spells.sum {text : String} {tree : Tree} (spells : Spells .singular text tree) : Spells .sum text tree :=
  spells.raise fun _ derives => derives.plain.product.sum

theorem Spells.product {text : String} {tree : Tree} (spells : Spells .singular text tree) : Spells .product text tree :=
  spells.raise fun _ derives => derives.plain.product

theorem Spells.comparison {text : String} {tree : Tree} (spells : Spells .singular text tree) : Spells .comparison text tree :=
  spells.sum.raise fun _ derives => derives.alone

theorem Spells.expression {text : String} {tree : Tree} (spells : Spells .singular text tree) : Spells .expression text tree :=
  spells.comparison.raise fun _ derives => derives.expression

-- One operator between two operands, in the place that the grammar has for it.
theorem Derives.binary {op : Operator} {ts us : List Token} {t u : Tree} {level : Level} {group : List Operator}
    (listed : group ∈ level.groups) (grouped : op ∈ group) (left : Derives level.operand ts t)
    (right : Derives level.operand us u) : Derives level (ts ++ .mark op.symbol :: us) (.binary op t u) := by
  have chain := @Derives.chain level group ts t [⟨op, us, u⟩] listed left (by simpa using grouped) (by simpa using right)
  simpa [written, Link.written, Link.join] using chain

def Arith.operator : Arith → Operator
  | .add => .add
  | .sub => .sub
  | .mul => .mul
  | .div => .div
  | .rem => .rem

def Relation.operator : Relation → Operator
  | .lt => .lt
  | .le => .le
  | .gt => .gt
  | .ge => .ge
  | .eq => .eq
  | .ne => .ne

theorem Derives.arith (op : Arith) {ts us : List Token} {t u : Tree} (left : Derives .singular ts t)
    (right : Derives .singular us u) :
    Derives .expression (ts ++ .mark op.operator.symbol :: us) (.binary op.operator t u) := by
  cases op with
  | add | sub =>
    apply Derives.expression
    apply Derives.alone
    refine Derives.binary List.mem_cons_self ?_ left.plain.product right.plain.product
    decide
  | mul | div | rem =>
    apply Derives.expression
    apply Derives.alone
    apply Derives.sum
    refine Derives.binary List.mem_cons_self ?_ left.plain right.plain
    decide

theorem Yields.blank {text : List Char} {tokens : List Token} {rest : List Char} (yields : Yields text tokens rest) :
    Yields (' ' :: text) tokens rest := (yields_blank (text ++ rest)).append yields

theorem symbol_listed (op : Operator) : op.symbol ∈ marks ∧ op.symbol ≠ "." := by
  cases op <;> decide

-- Blanks around the symbol keep it apart from both operands.
theorem Spells.between {op : Operator} {left right : String} {t u : Tree} {lower upper : Level} (one : Spells lower left t)
    (two : Spells lower right u)
    (rule : ∀ ts us, Derives lower ts t → Derives lower us u → Derives upper (ts ++ .mark op.symbol :: us) (.binary op t u)) :
    Spells upper (left ++ " " ++ op.symbol ++ " " ++ right) (.binary op t u) := by
  obtain ⟨ts, derives, ⟨c, cs, spelled, apart⟩, yields⟩ := one
  obtain ⟨us, derived, _, yielded⟩ := two
  have text : (left ++ " " ++ op.symbol ++ " " ++ right).toList =
      left.toList ++ (' ' :: (op.symbol.toList ++ ' ' :: right.toList)) := by
    simp
  refine ⟨_, rule ts us derives derived, ?_, ?_⟩
  · rw [text, spelled]
    exact ⟨c, _, rfl, apart⟩
  · intro rest stops
    rw [text]
    apply (yields _ (.cons rfl _)).append
    apply Yields.blank
    exact (yields_mark op.symbol (symbol_listed op).1 (symbol_listed op).2 (.cons rfl _)).append (yielded rest stops).blank

theorem yields_open (rest : List Char) : Yields ['('] [.mark "("] rest := yields_bracket "(" (by decide) rest

theorem yields_close (rest : List Char) : Yields [')'] [.mark ")"] rest := yields_bracket ")" (by decide) rest

theorem Spells.paren {text : String} {tree : Tree} (spells : Spells .expression text tree) :
    Spells .primary ("(" ++ text ++ ")") tree := by
  obtain ⟨ts, derives, _, yields⟩ := spells
  have spelled : ("(" ++ text ++ ")").toList = ['('] ++ (text.toList ++ [')']) := by simp
  refine ⟨_, derives.paren, ?_, ?_⟩
  · rw [spelled]
    exact ⟨'(', _, rfl, rfl⟩
  · intro rest stops
    rw [spelled]
    exact (yields_open _).append ((yields _ (.cons rfl rest)).append (yields_close rest))

theorem Spells.negate {text : String} {tree : Tree} (spells : Spells .singular text tree) :
    Spells .primary ("(-" ++ text ++ ")") (.negate tree) := by
  obtain ⟨ts, derives, ⟨c, cs, starts, apart⟩, yields⟩ := spells
  have spelled : ("(-" ++ text ++ ")").toList = ['('] ++ (['-'] ++ text.toList ++ [')']) := by simp
  have inside : Derives .expression (.mark "-" :: ts) (.negate tree) := derives.plain.minus.product.sum.alone.expression
  refine ⟨_, inside.paren, ?_, ?_⟩
  · rw [spelled]
    exact ⟨'(', _, rfl, rfl⟩
  · intro rest stops
    have after : Cut joins (text.toList ++ ([')'] ++ rest)) := by
      rw [starts]
      exact .cons apart _
    have minus : Yields ['-'] [.mark "-"] (text.toList ++ ([')'] ++ rest)) := yields_mark "-" (by decide) (by decide) after
    rw [spelled]
    apply (yields_open _).append
    exact (minus.append (yields _ (.cons rfl rest))).append (yields_close rest)

theorem IsName.first {word : String} (name : IsName word) :
    ∃ c cs, word.toList = c :: cs ∧ joins c = false ∧ c.isDigit = false := by
  have ident := name.1
  unfold isIdentifier at ident
  split at ident
  · cases ident
  · rename_i first rest spelled
    rw [Bool.and_eq_true] at ident
    have starts : startsName first = true := ident.1
    refine ⟨first, rest, spelled, not_joins starts (by decide), ?_⟩
    by_contra digit
    cases (startsName_of_isDigit (Bool.eq_true_of_not_eq_false digit)).symm.trans starts

theorem spells_name {word : String} (name : IsName word) : Spells .primary word (.name word) := by
  obtain ⟨c, cs, spelled, apart, _⟩ := name.first
  exact ⟨_, .name word, ⟨c, cs, spelled, apart⟩, fun rest stops => yields_name name stops⟩

theorem Yields.nil (rest : List Char) : Yields [] [] rest := by
  simp [Yields]

-- Texts with commas between them are arguments, each of which ends with its comma.
theorem yields_joined {words : List String} {trees : List Tree} (spells : List.Forall₂ (Spells .expression) words trees) :
    ∃ parts : Arguments, (∀ part ∈ parts.all, Derives .expression part.1 part.2) ∧ parts.all.map Prod.snd = trees ∧
      ∀ rest, Cut inName rest → Yields (Text.joined ", " words).toList parts.tokens rest := by
  induction spells with
  | nil =>
    refine ⟨⟨[], none⟩, by simp [Arguments.all], rfl, ?_⟩
    intro rest _
    exact Yields.nil rest
  | @cons word tree words trees one others ih =>
    obtain ⟨ts, derives, _, yields⟩ := one
    cases others with
    | nil => exact ⟨⟨[], some (ts, tree)⟩, by simpa [Arguments.all] using derives, rfl, yields⟩
    | @cons next _ more =>
      obtain ⟨⟨closed, last⟩, inside, same, later⟩ := ih
      refine ⟨⟨(ts, tree) :: closed, last⟩, ?_, ?_, ?_⟩
      · exact List.forall_mem_cons.mpr ⟨derives, inside⟩
      · exact congrArg (tree :: ·) same
      · intro rest stops
        have text : (Text.joined ", " (word :: next :: more)).toList =
            word.toList ++ ([','] ++ ' ' :: (Text.joined ", " (next :: more)).toList) := by
          change (word ++ ", " ++ Text.joined ", " (next :: more)).toList = _
          simp
        have tokens : Arguments.tokens ⟨(ts, tree) :: closed, last⟩ = ts ++ ([.mark ","] ++ Arguments.tokens ⟨closed, last⟩) := by
          simp [Arguments.tokens]
        have comma : Cut inName ([','] ++ ' ' :: (Text.joined ", " (next :: more)).toList ++ rest) := .cons rfl _
        rw [text, tokens]
        exact (yields _ comma).append ((yields_bracket "," (by decide) _).append (later rest stops).blank)

theorem spells_call {callee : String} (name : IsName callee) {words : List String} {trees : List Tree}
    (spells : List.Forall₂ (Spells .expression) words trees) :
    Spells .singular (callee ++ "(" ++ Text.joined ", " words ++ ")") (.call callee trees) := by
  obtain ⟨c, cs, starts, apart, _⟩ := name.first
  obtain ⟨parts, inside, same, yields⟩ := yields_joined spells
  have text : (callee ++ "(" ++ Text.joined ", " words ++ ")").toList =
      callee.toList ++ (['('] ++ ((Text.joined ", " words).toList ++ [')'])) := by simp
  refine ⟨.name callee :: .mark "(" :: (parts.tokens ++ [.mark ")"]), ?_, ?_, ?_⟩
  · rw [← same]
    exact (Derives.call callee inside).singular
  · rw [text, starts]
    exact ⟨c, _, rfl, apart⟩
  · intro rest _
    have bracket : Cut inName (['('] ++ ((Text.joined ", " words).toList ++ [')']) ++ rest) := .cons rfl _
    rw [text]
    exact (yields_name name bracket).append ((yields_open _).append ((yields _ (.cons rfl rest)).append (yields_close rest)))

theorem spells_member {base field : String} (name : IsName base) (part : IsName field) :
    Spells .singular (base ++ "." ++ field) (.member (.name base) field) := by
  obtain ⟨c, cs, starts, apart, _⟩ := name.first
  have text : (base ++ "." ++ field).toList = base.toList ++ (['.'] ++ field.toList) := by simp
  refine ⟨_, (Derives.name base).members [field], ?_, ?_⟩
  · rw [text, starts]
    exact ⟨c, _, rfl, apart⟩
  · intro rest stops
    have point : Cut inName (['.'] ++ field.toList ++ rest) := .cons rfl _
    have letter : Cut Char.isDigit (field.toList ++ rest) := by
      obtain ⟨d, ds, spelled, _, digit⟩ := part.first
      rw [spelled]
      exact .cons digit _
    rw [text]
    exact (yields_name name point).append ((yields_point letter).append (yields_name part stops))

theorem yields_keyword (word : String) (listed : word ∈ keywords) {rest : List Char} (stops : Cut inName rest) :
    Yields word.toList [.keyword word] rest := by
  have all : keywords.all isIdentifier = true := by decide
  have read := yields_word (List.all_eq_true.mp all word listed) stops
  rwa [wordToken, if_pos listed] at read

theorem generic_listed {word : String} (listed : word ∈ generics) : word ∈ keywords := List.mem_append_right _ listed

theorem yields_generic {callee type : String} (listed : callee ∈ generics) (name : IsName type) {rest : List Char}
    (stops : Cut joins rest) :
    Yields (callee ++ "<" ++ type ++ ">").toList [.keyword callee, .mark "<", .name type, .mark ">"] rest := by
  have text : (callee ++ "<" ++ type ++ ">").toList = callee.toList ++ (['<'] ++ (type.toList ++ ['>'])) := by simp
  have opens : Yields ['<'] [.mark "<"] (type.toList ++ ['>'] ++ rest) := by
    obtain ⟨c, cs, spelled, apart, _⟩ := name.first
    rw [spelled]
    exact yields_mark "<" (by decide) (by decide) (.cons apart _)
  have closes : Yields ['>'] [.mark ">"] rest := yields_mark ">" (by decide) (by decide) stops
  have open' : Cut inName (['<'] ++ (type.toList ++ ['>']) ++ rest) := .cons rfl _
  have close' : Cut inName (['>'] ++ rest) := .cons rfl _
  rw [text]
  exact (yields_keyword callee (generic_listed listed) open').append (opens.append ((yields_name name close').append closes))

theorem generic_first {word : String} (listed : word ∈ generics) : ∃ c cs, word.toList = c :: cs ∧ joins c = false := by
  simp only [generics, List.mem_cons, List.not_mem_nil, or_false] at listed
  rcases listed with rfl | rfl | rfl <;> exact ⟨_, _, rfl, rfl⟩

theorem spells_construct {callee type : String} (listed : callee ∈ generics) (name : IsName type) {words : List String}
    {trees : List Tree} (spells : List.Forall₂ (Spells .expression) words trees) :
    Spells .singular (callee ++ "<" ++ type ++ ">" ++ "(" ++ Text.joined ", " words ++ ")") (.construct callee type trees) := by
  obtain ⟨parts, inside, same, yields⟩ := yields_joined spells
  have text : (callee ++ "<" ++ type ++ ">" ++ "(" ++ Text.joined ", " words ++ ")").toList =
      (callee ++ "<" ++ type ++ ">").toList ++ (['('] ++ ((Text.joined ", " words).toList ++ [')'])) := by simp
  refine ⟨.keyword callee :: .mark "<" :: .name type :: .mark ">" :: .mark "(" :: (parts.tokens ++ [.mark ")"]), ?_, ?_, ?_⟩
  · rw [← same]
    exact (Derives.construct callee type listed inside).singular
  · obtain ⟨c, cs, spelled, apart⟩ := generic_first listed
    rw [text, String.toList_append, String.toList_append, String.toList_append, spelled]
    exact ⟨c, _, rfl, apart⟩
  · intro rest _
    have bracket : Cut joins (['('] ++ ((Text.joined ", " words).toList ++ [')']) ++ rest) := .cons rfl _
    rw [text]
    exact (yields_generic listed name bracket).append
      ((yields_open _).append ((yields _ (.cons rfl rest)).append (yields_close rest)))

theorem spells_word (n : Nat) : Spells .primary (toString n ++ "u") (.integer n true) := by
  obtain ⟨c, cs, spelled⟩ := List.exists_cons_of_ne_nil (Nat.toDigits_ne_nil (n := n) (b := 10))
  have digit := toDigits_isDigit n c (by rw [spelled]; exact List.mem_cons_self)
  refine ⟨_, .integer n true, ⟨c, cs ++ ['u'], ?_, not_joins digit (by decide)⟩, fun rest stops => yields_integer n true stops nofun⟩
  rw [String.toList_append, toList_toString, spelled]
  rfl

theorem spells_element {buffer index : String} {ts : List Token} {t : Tree} (name : IsName buffer)
    (derives : Derives .expression ts t) (yields : ∀ rest, Yields index.toList ts (']' :: rest)) :
    Spells .primary (buffer ++ "[" ++ index ++ "]") (.element buffer t) := by
  obtain ⟨c, cs, starts, apart, _⟩ := name.first
  have text : (buffer ++ "[" ++ index ++ "]").toList = buffer.toList ++ (['['] ++ (index.toList ++ [']'])) := by simp
  refine ⟨_, .element buffer derives, ?_, ?_⟩
  · rw [text, starts]
    exact ⟨c, _, rfl, apart⟩
  · intro rest _
    have opens : Yields ['['] [.mark "["] (index.toList ++ [']'] ++ rest) := yields_bracket "[" (by decide) _
    have closes : Yields [']'] [.mark "]"] rest := yields_bracket "]" (by decide) rest
    have bracket : Cut inName (['['] ++ (index.toList ++ [']']) ++ rest) := .cons rfl _
    rw [text]
    exact (yields_name name bracket).append (opens.append ((yields rest).append closes))

theorem Spells.not {text : String} {tree : Tree} (spells : Spells .singular text tree) :
    Spells .expression ("!" ++ text) (.not tree) := by
  obtain ⟨ts, derives, ⟨c, cs, starts, apart⟩, yields⟩ := spells
  have spelled : ("!" ++ text).toList = ['!'] ++ text.toList := by simp
  refine ⟨_, derives.plain.not.product.sum.alone.expression, ?_, ?_⟩
  · rw [spelled]
    exact ⟨'!', _, rfl, rfl⟩
  · intro rest stops
    have after : Cut joins (text.toList ++ rest) := by
      rw [starts]
      exact .cons apart _
    rw [spelled]
    exact (yields_mark "!" (by decide) (by decide) after).append (yields rest stops)

-- The tree of a 32-bit constant. Only words that stand for numbers are written as such.
def constantTree (w : Single) : Tree :=
  if !w.isFinite then .call "kf_bits" [.bits w.bits.toNat]
  else if w.bits &&& 0x80000000 = 0 then .number w
  else .negate (.number w.unsigned)

theorem Denotes.spells {text : String} {x : ℚ} {w : Single} (denotes : Denotes text x) (nearest : w.IsNearest x) :
    Spells .primary text (.number w) := by
  obtain ⟨read, rfl, ⟨c, cs, spelled, digit⟩, yields⟩ := denotes
  exact ⟨_, .number nearest, ⟨c, cs, spelled, not_joins digit (by decide)⟩, yields⟩

theorem spells_bits {n : Nat} (word : n < 0x100000000) : Spells .primary ("0x" ++ Text.hex 8 n ++ "u") (.bits n) := by
  refine ⟨_, .bits n, ⟨'0', 'x' :: ((Text.hex 8 n).toList ++ ['u']), ?_, rfl⟩, fun rest stops => yields_bits word stops⟩
  simp

theorem spells_constant (value : Float) : Spells .singular (literalText value) (constantTree (Single.ofFloat value)) := by
  unfold literalText constantTree
  generalize Single.ofFloat value = w
  dsimp only
  split
  · have spelled : "kf_bits(0x" ++ Text.hex 8 w.bits.toNat ++ "u)" =
        "kf_bits" ++ "(" ++ Text.joined ", " ["0x" ++ Text.hex 8 w.bits.toNat ++ "u"] ++ ")" := by
      rw [← String.toList_inj]
      simp [Text.joined]
    have name : IsName "kf_bits" := by decide
    rw [spelled]
    exact spells_call name (.cons (spells_bits w.bits.toNat_lt).singular.expression .nil)
  · rename_i finite
    obtain ⟨text, x, literal, denotes, nearest⟩ := literal_parts (w := w) (by simpa using finite)
    rw [literal]
    split
    · rename_i clear
      have positive := (Single.positive_iff w).mp clear
      rw [Single.unsigned_of_positive positive] at nearest
      rw [positive, if_neg (by decide), String.empty_append]
      exact (denotes.spells nearest).singular
    · rename_i set
      have negative := Bool.eq_true_of_not_eq_false fun positive => set ((Single.positive_iff w).mpr positive)
      have spelled : "(" ++ ("-" ++ text) ++ ")" = "(-" ++ text ++ ")" := by
        rw [← String.toList_inj]
        simp
      rw [negative, if_pos rfl, spelled]
      exact (denotes.spells nearest).singular.negate.singular

end GridKernel.Shader
