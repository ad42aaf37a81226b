import GridKernel.Proofs.Number.Shortest
import GridKernel.Proofs.Shader.Tokens

namespace GridKernel.Shader

inductive Operator where
  | add
  | sub
  | mul
  | div
  | rem
  | lt
  | le
  | gt
  | ge
  | eq
  | ne
  | and
  | or
deriving DecidableEq

def Operator.symbol : Operator → String
  | .add => "+"
  | .sub => "-"
  | .mul => "*"
  | .div => "/"
  | .rem => "%"
  | .lt => "<"
  | .le => "<="
  | .gt => ">"
  | .ge => ">="
  | .eq => "=="
  | .ne => "!="
  | .and => "&&"
  | .or => "||"

inductive Tree where
  | number (word : Single)
  | integer (value : Nat) (unsigned : Bool)
  | bits (value : Nat)
  | name (text : String)
  | element (buffer : String) (index : Tree)
  | member (base : Tree) (field : String)
  | call (callee : String) (args : List Tree)
  | construct (callee type : String) (args : List Tree)
  | negate (input : Tree)
  | not (input : Tree)
  | binary (op : Operator) (left right : Tree)

inductive Level where
  | primary
  | singular
  | unary
  | product
  | sum
  | comparison
  | expression
deriving DecidableEq

-- The operators of the chains at a level. A chain has operators of one group only, and its operands are
-- of the level below.
def Level.groups : Level → List (List Operator)
  | .product => [[.mul, .div, .rem]]
  | .sum => [[.add, .sub]]
  | .expression => [[.and], [.or]]
  | _ => []

def Level.operand : Level → Level
  | .product => .unary
  | .sum => .product
  | .expression => .comparison
  | level => level

def relations : List Operator := [.lt, .le, .gt, .ge, .eq, .ne]

structure Link where
  op : Operator
  tokens : List Token
  tree : Tree

def Link.written (link : Link) : List Token := .mark link.op.symbol :: link.tokens

def Link.join (left : Tree) (link : Link) : Tree := .binary link.op left link.tree

def written (links : List Link) : List Token := links.flatMap Link.written

def fieldTokens (fields : List String) : List Token := fields.flatMap fun field => [.mark ".", .name field]

-- Arguments that end with a comma, and a last one that does not.
structure Arguments where
  closed : List (List Token × Tree)
  last : Option (List Token × Tree)

def Arguments.all (args : Arguments) : List (List Token × Tree) := args.closed ++ args.last.toList

def Arguments.tokens (args : Arguments) : List Token :=
  args.closed.flatMap (fun arg => arg.1 ++ [.mark ","]) ++ args.last.elim [] Prod.fst

-- A literal is rounded once, from its decimal to the nearest 32-bit number. A reader that goes through a
-- 64-bit number first rounds twice and can end at a neighbour, as it does for 7.038531e-26.
inductive Derives : Level → List Token → Tree → Prop where
  | number {value : Decimal} {word : Single} (nearest : word.IsNearest value.value) :
      Derives .primary [.number value] (.number word)
  | integer (value : Nat) (unsigned : Bool) : Derives .primary [.integer value unsigned] (.integer value unsigned)
  | bits (value : Nat) : Derives .primary [.bits value] (.bits value)
  | name (text : String) : Derives .primary [.name text] (.name text)
  | element (buffer : String) {ts : List Token} {t : Tree} (inside : Derives .expression ts t) :
      Derives .primary (.name buffer :: .mark "[" :: (ts ++ [.mark "]"])) (.element buffer t)
  | call (callee : String) {args : Arguments} (inside : ∀ arg ∈ args.all, Derives .expression arg.1 arg.2) :
      Derives .primary (.name callee :: .mark "(" :: (args.tokens ++ [.mark ")"])) (.call callee (args.all.map Prod.snd))
  | construct (callee type : String) {args : Arguments} (listed : callee ∈ generics)
      (inside : ∀ arg ∈ args.all, Derives .expression arg.1 arg.2) :
      Derives .primary
        (.keyword callee :: .mark "<" :: .name type :: .mark ">" :: .mark "(" :: (args.tokens ++ [.mark ")"]))
        (.construct callee type (args.all.map Prod.snd))
  | paren {ts : List Token} {t : Tree} (inside : Derives .expression ts t) :
      Derives .primary (.mark "(" :: (ts ++ [.mark ")"])) t
  | members {ts : List Token} {t : Tree} (base : Derives .primary ts t) (fields : List String) :
      Derives .singular (ts ++ fieldTokens fields) (fields.foldl .member t)
  | plain {ts : List Token} {t : Tree} (inside : Derives .singular ts t) : Derives .unary ts t
  | minus {ts : List Token} {t : Tree} (inside : Derives .unary ts t) : Derives .unary (.mark "-" :: ts) (.negate t)
  | not {ts : List Token} {t : Tree} (inside : Derives .unary ts t) : Derives .unary (.mark "!" :: ts) (.not t)
  | chain {level : Level} {group : List Operator} {ts : List Token} {t : Tree} {links : List Link}
      (listed : group ∈ level.groups) (first : Derives level.operand ts t) (grouped : ∀ link ∈ links, link.op ∈ group)
      (rest : ∀ link ∈ links, Derives level.operand link.tokens link.tree) :
      Derives level (ts ++ written links) (links.foldl Link.join t)
  | alone {ts : List Token} {t : Tree} (inside : Derives .sum ts t) : Derives .comparison ts t
  | compare {op : Operator} {ts us : List Token} {t u : Tree} (listed : op ∈ relations) (left : Derives .sum ts t)
      (right : Derives .sum us u) : Derives .comparison (ts ++ .mark op.symbol :: us) (.binary op t u)

-- The marks that a reading of a level would go on with.
def Level.goesOn : Level → List String
  | .primary => ["(", "["]
  | .singular | .unary => ["(", "[", "."]
  | .product => ["(", "[", ".", "*", "/", "%"]
  | .sum => ["(", "[", ".", "*", "/", "%", "+", "-"]
  | .comparison => ["(", "[", ".", "*", "/", "%", "+", "-", "<", "<=", ">", ">=", "==", "!="]
  | .expression => ["(", "[", ".", "*", "/", "%", "+", "-", "<", "<=", ">", ">=", "==", "!=", "&&", "||"]

def Level.Stops (level : Level) (rest : List Token) : Prop := ∀ s, rest.head? = some (.mark s) → s ∉ level.goesOn

theorem stops_mark {level : Level} {s : String} (other : s ∉ level.goesOn) (rest : List Token) :
    level.Stops (.mark s :: rest) := by
  intro t first
  cases first
  exact other

theorem Level.Stops.below {level lower : Level} {rest : List Token} (stops : level.Stops rest)
    (fewer : ∀ s ∈ lower.goesOn, s ∈ level.goesOn) : lower.Stops rest := by
  intro s first inside
  exact stops s first (fewer s inside)

theorem Level.Stops.operand {level : Level} {rest : List Token} (stops : level.Stops rest) : level.operand.Stops rest := by
  apply stops.below
  cases level <;> decide

theorem group_symbol {level : Level} : ∀ group ∈ level.groups, ∀ op ∈ group,
    op.symbol ∈ level.goesOn ∧ op.symbol ∉ level.operand.goesOn := by
  cases level <;> decide

theorem Operator.symbol_inj {op other : Operator} (same : op.symbol = other.symbol) : op = other := by
  have all (op : Operator) : op ∈ [add, sub, mul, div, rem, lt, le, gt, ge, eq, ne, and, or] := by cases op <;> decide
  have distinct : ∀ op ∈ [add, sub, mul, div, rem, lt, le, gt, ge, eq, ne, and, or],
      ∀ other ∈ [add, sub, mul, div, rem, lt, le, gt, ge, eq, ne, and, or], op.symbol = other.symbol → op = other := by
    decide
  exact distinct op (all op) other (all other) same

def signs : List String := ["-", "!"]

-- The first token of an expression is an operand, a bracket or a sign, and operands have no sign.
def Begins (level : Level) (first : Token) : Prop :=
  ∀ s, first = .mark s → s = "(" ∨ s ∈ signs ∧ level ≠ .primary ∧ level ≠ .singular

theorem Derives.begins {level : Level} {ts : List Token} {t : Tree} (derives : Derives level ts t) :
    ∃ first rest, ts = first :: rest ∧ Begins level first := by
  induction derives with
  | number | integer | bits | name | element | call | construct =>
    refine ⟨_, _, rfl, ?_⟩
    intro s same
    cases same
  | paren inside ih =>
    refine ⟨_, _, rfl, ?_⟩
    intro s same
    cases same
    exact .inl rfl
  | members base fields ih =>
    obtain ⟨first, rest, rfl, begins⟩ := ih
    refine ⟨first, rest ++ fieldTokens fields, rfl, ?_⟩
    intro s same
    exact (begins s same).imp_right fun sign => absurd rfl sign.2.1
  | plain inside ih =>
    obtain ⟨first, rest, rfl, begins⟩ := ih
    refine ⟨first, rest, rfl, ?_⟩
    intro s same
    exact (begins s same).imp_right fun sign => absurd rfl sign.2.2
  | minus inside ih | not inside ih =>
    refine ⟨_, _, rfl, ?_⟩
    intro s same
    cases same
    exact .inr ⟨by decide, by decide, by decide⟩
  | @chain level group ts t links listed first grouped rest ih others =>
    obtain ⟨token, more, rfl, begins⟩ := ih
    refine ⟨token, more ++ written links, rfl, ?_⟩
    intro s same
    refine (begins s same).imp_right fun sign => ⟨sign.1, ?_, ?_⟩
    · rintro rfl
      cases listed
    · rintro rfl
      cases listed
  | alone inside ih =>
    obtain ⟨first, rest, rfl, begins⟩ := ih
    refine ⟨first, rest, rfl, ?_⟩
    intro s same
    exact (begins s same).imp_right fun sign => ⟨sign.1, by decide, by decide⟩
  | compare listed left right ih others =>
    obtain ⟨first, rest, rfl, begins⟩ := ih
    refine ⟨first, _, rfl, ?_⟩
    intro s same
    exact (begins s same).imp_right fun sign => ⟨sign.1, by decide, by decide⟩

-- No other reading of the same level starts with the same tokens and is followed by what stops the level.
def Settles (level : Level) (ts : List Token) (t : Tree) : Prop :=
  ∀ us u r q, Derives level us u → ts ++ r = us ++ q → level.Stops r → level.Stops q → ts = us ∧ t = u

theorem fields_unique {fields others : List String} {r q : List Token} (same : fieldTokens fields ++ r = fieldTokens others ++ q)
    (stops : Level.singular.Stops r) (ends : Level.singular.Stops q) : fields = others := by
  induction fields generalizing others with
  | nil =>
    cases others with
    | nil => rfl
    | cons other others =>
      cases same
      exact absurd (by decide) (stops "." rfl)
  | cons field fields ih =>
    cases others with
    | nil =>
      cases same
      exact absurd (by decide) (ends "." rfl)
    | cons other others =>
      simp only [fieldTokens, List.flatMap_cons, List.cons_append, List.nil_append, List.cons.injEq, Token.name.injEq,
        true_and] at same
      obtain ⟨rfl, same⟩ := same
      rw [ih same]

-- The operators of a chain continue its level and stop its operands.
def Continues (level : Level) (links : List Link) : Prop :=
  ∀ link ∈ links, link.op.symbol ∈ level.goesOn ∧ link.op.symbol ∉ level.operand.goesOn

theorem continues_of_group {level : Level} {group : List Operator} {links : List Link} (listed : group ∈ level.groups)
    (grouped : ∀ link ∈ links, link.op ∈ group) : Continues level links :=
  fun link member => group_symbol group listed link.op (grouped link member)

theorem Continues.stops {level : Level} {links : List Link} (continues : Continues level links) {rest : List Token}
    (stops : level.Stops rest) : level.operand.Stops (written links ++ rest) := by
  cases links with
  | nil => exact stops.operand
  | cons link links => exact stops_mark (continues link List.mem_cons_self).2 _

theorem links_unique {level : Level} {links others : List Link} {r q : List Token} (continues : Continues level links)
    (too : Continues level others) (settles : ∀ link ∈ links, Settles level.operand link.tokens link.tree)
    (derives : ∀ link ∈ others, Derives level.operand link.tokens link.tree)
    (same : written links ++ r = written others ++ q) (stops : level.Stops r) (ends : level.Stops q) : links = others := by
  induction links generalizing others with
  | nil =>
    cases others with
    | nil => rfl
    | cons other others =>
      cases same
      exact absurd (too other List.mem_cons_self).1 (stops _ rfl)
  | cons link links ih =>
    cases others with
    | nil =>
      cases same
      exact absurd (continues link List.mem_cons_self).1 (ends _ rfl)
    | cons other others =>
      have later : Continues level links := fun link member => continues link (List.mem_cons_of_mem _ member)
      have laterToo : Continues level others := fun link member => too link (List.mem_cons_of_mem _ member)
      have split : Token.mark link.op.symbol :: (link.tokens ++ (written links ++ r)) =
          .mark other.op.symbol :: (other.tokens ++ (written others ++ q)) := by
        simpa [written, Link.written] using same
      obtain ⟨symbols, tokens⟩ := List.cons.inj split
      have ops := Operator.symbol_inj (Token.mark.inj symbols)
      obtain ⟨first, tree⟩ := settles link List.mem_cons_self _ _ _ _ (derives other List.mem_cons_self) tokens
        (later.stops stops) (laterToo.stops ends)
      rw [first] at tokens
      have rest := ih later laterToo (fun link member => settles link (List.mem_cons_of_mem _ member))
        (fun link member => derives link (List.mem_cons_of_mem _ member)) (List.append_cancel_left tokens)
      rw [rest]
      cases link
      cases other
      cases ops
      cases first
      cases tree
      rfl

theorem stops_argument (rest : List Token) {s : String} (ends : s = "," ∨ s = ")") : Level.expression.Stops (.mark s :: rest) := by
  apply stops_mark
  rcases ends with rfl | rfl <;> decide

theorem Derives.not_close {level : Level} {ts : List Token} {t : Tree} (derives : Derives level ts t) (r q : List Token) :
    .mark ")" :: r ≠ ts ++ q := by
  obtain ⟨first, rest, rfl, begins⟩ := derives.begins
  intro same
  rcases begins ")" (List.cons.inj same).1.symm with wrong | ⟨wrong, _⟩
  · exact absurd wrong (by decide)
  · exact absurd wrong (by decide)

theorem Arguments.tokens_cons (arg : List Token × Tree) (closed : List (List Token × Tree)) (last : Option (List Token × Tree))
    (rest : List Token) :
    Arguments.tokens ⟨arg :: closed, last⟩ ++ rest = arg.1 ++ .mark "," :: (Arguments.tokens ⟨closed, last⟩ ++ rest) := by
  simp [Arguments.tokens]

-- One argument against another: both end at a mark, and at the same one.
theorem argument_unique {arg other : List Token × Tree} {s t : String} {r q : List Token}
    (settles : Settles .expression arg.1 arg.2) (derives : Derives .expression other.1 other.2)
    (ends : s = "," ∨ s = ")") (too : t = "," ∨ t = ")") (same : arg.1 ++ .mark s :: r = other.1 ++ .mark t :: q) :
    arg = other ∧ s = t ∧ r = q := by
  obtain ⟨tokens, tree⟩ := settles _ _ _ _ derives same (stops_argument _ ends) (stops_argument _ too)
  rw [tokens] at same
  obtain ⟨marks, rest⟩ := List.cons.inj (List.append_cancel_left same)
  exact ⟨Prod.ext tokens tree, Token.mark.inj marks, rest⟩

-- Arguments end at a comma or at the closing bracket, and neither can start one.
theorem arguments_unique {args others : Arguments} {r q : List Token}
    (derives : ∀ arg ∈ args.all, Derives .expression arg.1 arg.2)
    (settles : ∀ arg ∈ args.all, Settles .expression arg.1 arg.2)
    (too : ∀ arg ∈ others.all, Derives .expression arg.1 arg.2)
    (same : args.tokens ++ .mark ")" :: r = others.tokens ++ .mark ")" :: q) : args = others := by
  obtain ⟨closed, last⟩ := args
  obtain ⟨closers, final⟩ := others
  induction closed generalizing closers with
  | nil =>
    cases closers with
    | nil =>
      cases last with
      | none =>
        cases final with
        | none => rfl
        | some other => exact absurd same ((too other (by simp [Arguments.all])).not_close _ _)
      | some arg =>
        cases final with
        | none => exact absurd same.symm ((derives arg (by simp [Arguments.all])).not_close _ _)
        | some other =>
          obtain ⟨rfl, _⟩ := argument_unique (settles arg (by simp [Arguments.all])) (too other (by simp [Arguments.all]))
            (.inr rfl) (.inr rfl) same
          rfl
    | cons other closers =>
      have second := too other (by simp [Arguments.all])
      rw [Arguments.tokens_cons] at same
      cases last with
      | none => exact absurd same (second.not_close _ _)
      | some arg =>
        obtain ⟨_, wrong, _⟩ := argument_unique (settles arg (by simp [Arguments.all])) second (.inr rfl) (.inl rfl) same
        exact absurd wrong (by decide)
  | cons arg closed ih =>
    have first := derives arg (by simp [Arguments.all])
    have settled := settles arg (by simp [Arguments.all])
    rw [Arguments.tokens_cons] at same
    cases closers with
    | nil =>
      cases final with
      | none => exact absurd same.symm (first.not_close _ _)
      | some other =>
        obtain ⟨_, wrong, _⟩ := argument_unique settled (too other (by simp [Arguments.all])) (.inl rfl) (.inr rfl) same
        exact absurd wrong (by decide)
    | cons other closers =>
      rw [Arguments.tokens_cons] at same
      obtain ⟨rfl, _, later⟩ := argument_unique settled (too other (by simp [Arguments.all])) (.inl rfl) (.inl rfl) same
      have rest := ih (fun arg member => derives arg (List.mem_cons_of_mem _ member))
        (fun arg member => settles arg (List.mem_cons_of_mem _ member)) closers
        (fun arg member => too arg (List.mem_cons_of_mem _ member)) later
      cases rest
      rfl

theorem Derives.not_sign {ts : List Token} {t : Tree} (derives : Derives .singular ts t) {s : String} (sign : s ∈ signs)
    (r q : List Token) : .mark s :: r ≠ ts ++ q := by
  have other : ∀ s ∈ signs, s ≠ "(" := by decide
  obtain ⟨first, rest, rfl, begins⟩ := derives.begins
  intro same
  rcases begins s (List.cons.inj same).1.symm with wrong | ⟨_, _, wrong⟩
  · exact other s sign wrong
  · exact wrong rfl

theorem stops_fields {fields : List String} {rest : List Token} (stops : Level.singular.Stops rest) :
    Level.primary.Stops (fieldTokens fields ++ rest) := by
  cases fields with
  | nil => exact stops.below (by decide)
  | cons field fields => exact stops_mark (by decide) _

theorem Derives.chain_parts {level : Level} {group : List Operator} (listed : group ∈ level.groups) {ts : List Token} {t : Tree}
    (derives : Derives level ts t) :
    ∃ front first links, Derives level.operand front first ∧ Continues level links ∧
      (∀ link ∈ links, Derives level.operand link.tokens link.tree) ∧ ts = front ++ written links ∧
      t = links.foldl Link.join first := by
  cases derives with
  | chain known first grouped rest => exact ⟨_, _, _, first, continues_of_group known grouped, rest, rfl, rfl⟩
  | number | integer | bits | name | element | call | construct | paren | members | plain | minus | not | alone | compare =>
    cases listed

theorem relation_symbol : ∀ op ∈ relations, op.symbol ∈ Level.comparison.goesOn ∧ op.symbol ∉ Level.sum.goesOn := by
  decide

theorem Level.Stops.sum {rest : List Token} (stops : Level.comparison.Stops rest) : Level.sum.Stops rest :=
  stops.below (by decide)

-- Two readings of a level are compared from their first tokens on: by the rule that a token decides on, the
-- parts of both are readings of the levels below.
theorem Derives.settles {level : Level} {ts : List Token} {t : Tree} (derives : Derives level ts t) : Settles level ts t := by
  induction derives with
  | number nearest =>
    intro us u r q other same stops ends
    cases other with
    | number too =>
      cases same
      exact ⟨rfl, congrArg Tree.number (nearest.unique too)⟩
    | integer | bits | name | element | call | construct | paren => cases same
    | chain listed => cases listed
  | integer value unsigned =>
    intro us u r q other same stops ends
    cases other with
    | integer =>
      cases same
      exact ⟨rfl, rfl⟩
    | number | bits | name | element | call | construct | paren => cases same
    | chain listed => cases listed
  | bits value =>
    intro us u r q other same stops ends
    cases other with
    | bits =>
      cases same
      exact ⟨rfl, rfl⟩
    | number | integer | name | element | call | construct | paren => cases same
    | chain listed => cases listed
  | name text =>
    intro us u r q other same stops ends
    cases other with
    | name =>
      cases same
      exact ⟨rfl, rfl⟩
    | call =>
      cases same
      exact absurd (by decide) (stops "(" rfl)
    | element =>
      cases same
      exact absurd (by decide) (stops "[" rfl)
    | number | integer | bits | construct | paren => cases same
    | chain listed => cases listed
  | @element buffer ts t inside ih =>
    intro us u r q other same stops ends
    cases other with
    | name =>
      cases same
      exact absurd (by decide) (ends "[" rfl)
    | element another too =>
      simp only [List.cons_append, List.append_assoc, List.cons.injEq, Token.name.injEq, true_and, List.nil_append] at same
      obtain ⟨rfl, same⟩ := same
      obtain ⟨rfl, rfl⟩ := ih _ _ _ _ too same (stops_mark (by decide) _) (stops_mark (by decide) _)
      exact ⟨rfl, rfl⟩
    | call => simp at same
    | number | integer | bits | construct | paren => cases same
    | chain listed => cases listed
  | @call callee args inside ih =>
    intro us u r q other same stops ends
    cases other with
    | name =>
      cases same
      exact absurd (by decide) (ends "(" rfl)
    | @call another others too =>
      simp only [List.cons_append, List.append_assoc, List.cons.injEq, Token.name.injEq, true_and, List.nil_append] at same
      obtain ⟨rfl, same⟩ := same
      obtain rfl := arguments_unique inside ih too same
      exact ⟨rfl, rfl⟩
    | element => simp at same
    | number | integer | bits | construct | paren => cases same
    | chain listed => cases listed
  | @construct callee type args listed inside ih =>
    intro us u r q other same stops ends
    cases other with
    | @construct another kind others _ too =>
      simp only [List.cons_append, List.append_assoc, List.cons.injEq, Token.keyword.injEq, Token.name.injEq, true_and,
        List.nil_append] at same
      obtain ⟨rfl, rfl, same⟩ := same
      obtain rfl := arguments_unique inside ih too same
      exact ⟨rfl, rfl⟩
    | number | integer | bits | name | element | call | paren => cases same
    | chain listed => cases listed
  | @paren ts t inside ih =>
    intro us u r q other same stops ends
    cases other with
    | paren too =>
      simp only [List.cons_append, List.append_assoc, List.cons.injEq, true_and, List.nil_append] at same
      obtain ⟨rfl, rfl⟩ := ih _ _ _ _ too same (stops_argument _ (.inr rfl)) (stops_argument _ (.inr rfl))
      exact ⟨rfl, rfl⟩
    | number | integer | bits | name | element | call | construct => cases same
    | chain listed => cases listed
  | @members ts t base fields ih =>
    intro us u r q other same stops ends
    cases other with
    | members too others =>
      rw [List.append_assoc, List.append_assoc] at same
      obtain ⟨rfl, rfl⟩ := ih _ _ _ _ too same (stops_fields stops) (stops_fields ends)
      rw [fields_unique (List.append_cancel_left same) stops ends]
      exact ⟨rfl, rfl⟩
    | chain listed => cases listed
  | plain inside ih =>
    intro us u r q other same stops ends
    cases other with
    | plain too => exact ih _ _ _ _ too same stops ends
    | minus | not => exact absurd same.symm (inside.not_sign (by decide) _ _)
    | chain listed => cases listed
  | minus inside ih =>
    intro us u r q other same stops ends
    cases other with
    | plain too => exact absurd same (too.not_sign (by decide) _ _)
    | minus too =>
      obtain ⟨rfl, rfl⟩ := ih _ _ _ _ too (List.cons.inj same).2 stops ends
      exact ⟨rfl, rfl⟩
    | not => simp at same
    | chain listed => cases listed
  | not inside ih =>
    intro us u r q other same stops ends
    cases other with
    | plain too => exact absurd same (too.not_sign (by decide) _ _)
    | minus => simp at same
    | not too =>
      obtain ⟨rfl, rfl⟩ := ih _ _ _ _ too (List.cons.inj same).2 stops ends
      exact ⟨rfl, rfl⟩
    | chain listed => cases listed
  | chain listed first grouped rest ih others =>
    intro us u r q other same stops ends
    obtain ⟨front, tree, links, too, continues, derived, rfl, rfl⟩ := other.chain_parts listed
    have own := continues_of_group listed grouped
    rw [List.append_assoc, List.append_assoc] at same
    obtain ⟨rfl, rfl⟩ := ih _ _ _ _ too same (own.stops stops) (continues.stops ends)
    rw [links_unique own continues others derived (List.append_cancel_left same) stops ends]
    exact ⟨rfl, rfl⟩
  | alone inside ih =>
    intro us u r q other same stops ends
    cases other with
    | alone too => exact ih _ _ _ _ too same stops.sum ends.sum
    | compare listed left =>
      rw [List.append_assoc] at same
      obtain ⟨rfl, _⟩ := ih _ _ _ _ left same stops.sum (stops_mark (relation_symbol _ listed).2 _)
      rw [List.append_cancel_left same] at stops
      exact absurd (relation_symbol _ listed).1 (stops _ rfl)
    | chain listed => cases listed
  | compare listed left right ih others =>
    intro us u r q other same stops ends
    rw [List.append_assoc] at same
    cases other with
    | alone too =>
      obtain ⟨rfl, _⟩ := ih _ _ _ _ too same (stops_mark (relation_symbol _ listed).2 _) ends.sum
      rw [← List.append_cancel_left same] at ends
      exact absurd (relation_symbol _ listed).1 (ends _ rfl)
    | compare known first second =>
      rw [List.append_assoc] at same
      obtain ⟨rfl, rfl⟩ := ih _ _ _ _ first same (stops_mark (relation_symbol _ listed).2 _)
        (stops_mark (relation_symbol _ known).2 _)
      obtain ⟨symbols, tokens⟩ := List.cons.inj (List.append_cancel_left same)
      obtain rfl := Operator.symbol_inj (Token.mark.inj symbols)
      obtain ⟨rfl, rfl⟩ := others _ _ _ _ second tokens stops.sum ends.sum
      exact ⟨rfl, rfl⟩
    | chain listed => cases listed

theorem Derives.unique {level : Level} {ts : List Token} {t u : Tree} (one : Derives level ts t) (two : Derives level ts u) :
    t = u := by
  have ends : level.Stops [] := by
    intro s first
    cases first
  exact (one.settles ts u [] [] two rfl ends ends).2

end GridKernel.Shader
