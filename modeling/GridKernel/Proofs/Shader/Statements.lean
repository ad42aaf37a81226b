import GridKernel.Proofs.Shader.Grammar

namespace GridKernel.Shader

inductive Kind where
  | plain (name : String)
  | generic (callee name : String)

def Kind.tokens : Kind → List Token
  | .plain name => [.name name]
  | .generic callee name => [.keyword callee, .mark "<", .name name, .mark ">"]

structure Param where
  name : String
  kind : Kind

def Param.tokens (p : Param) : List Token := .name p.name :: .mark ":" :: p.kind.tokens

def paramTokens : List Param → List Token
  | [] => []
  | [p] => p.tokens
  | p :: q :: rest => p.tokens ++ .mark "," :: paramTokens (q :: rest)

-- Text by the line: declarations, what a statement holds up to the block it opens, and the lines that end blocks.
inductive Line where
  | buffer (group number : Nat) (access name element : String)
  | const (name type : String) (value : Tree)
  | function (name : String) (params : List Param) (result : String)
  | compute (size : Nat)
  | entry (name builtin : String) (param : Param)
  | declare (name type : String) (value : Tree)
  | bind (name : String) (value : Tree)
  | assign (name : String) (value : Tree)
  | store (buffer : String) (index value : Tree)
  | loop (name type : String) (start test : Tree) (updated : String) (step : Tree)
  | branch (test : Tree)
  | otherwise
  | close
  | ret (value : Tree)
  | leave

inductive Forms : List Token → Line → Prop where
  | buffer (group number : Nat) (access name element : String) :
      Forms [.mark "@", .name "group", .mark "(", .integer group false, .mark ")", .mark "@", .name "binding", .mark "(",
          .integer number false, .mark ")", .keyword "var", .mark "<", .name "storage", .mark ",", .name access, .mark ">",
          .name name, .mark ":", .keyword "array", .mark "<", .name element, .mark ">", .mark ";"]
        (.buffer group number access name element)
  | const (name type : String) {ts : List Token} {t : Tree} (value : Derives .expression ts t) :
      Forms (.keyword "const" :: .name name :: .mark ":" :: .name type :: .mark "=" :: (ts ++ [.mark ";"]))
        (.const name type t)
  | function (name : String) (params : List Param) (result : String) :
      Forms (.keyword "fn" :: .name name :: .mark "(" ::
          (paramTokens params ++ [.mark ")", .mark "->", .name result, .mark "\x7b"]))
        (.function name params result)
  | compute (size : Nat) :
      Forms [.mark "@", .name "compute", .mark "@", .name "workgroup_size", .mark "(", .integer size false, .mark ")"]
        (.compute size)
  | entry (name builtin : String) (param : Param) :
      Forms (.keyword "fn" :: .name name :: .mark "(" :: .mark "@" :: .name "builtin" :: .mark "(" :: .name builtin ::
          .mark ")" :: (param.tokens ++ [.mark ")", .mark "\x7b"]))
        (.entry name builtin param)
  | declare (name type : String) {ts : List Token} {t : Tree} (value : Derives .expression ts t) :
      Forms (.keyword "var" :: .name name :: .mark ":" :: .name type :: .mark "=" :: (ts ++ [.mark ";"]))
        (.declare name type t)
  | bind (name : String) {ts : List Token} {t : Tree} (value : Derives .expression ts t) :
      Forms (.keyword "let" :: .name name :: .mark "=" :: (ts ++ [.mark ";"])) (.bind name t)
  | assign (name : String) {ts : List Token} {t : Tree} (value : Derives .expression ts t) :
      Forms (.name name :: .mark "=" :: (ts ++ [.mark ";"])) (.assign name t)
  | store (buffer : String) {ts us : List Token} {t u : Tree} (index : Derives .expression ts t)
      (value : Derives .expression us u) :
      Forms (.name buffer :: .mark "[" :: (ts ++ .mark "]" :: .mark "=" :: (us ++ [.mark ";"]))) (.store buffer t u)
  | loop (name type updated : String) {ts us vs : List Token} {t u v : Tree} (start : Derives .expression ts t)
      (test : Derives .expression us u) (step : Derives .expression vs v) :
      Forms (.keyword "for" :: .mark "(" :: .keyword "var" :: .name name :: .mark ":" :: .name type :: .mark "=" ::
          (ts ++ .mark ";" :: (us ++ .mark ";" :: .name updated :: .mark "=" :: (vs ++ [.mark ")", .mark "\x7b"]))))
        (.loop name type t u updated v)
  | branch {ts : List Token} {t : Tree} (test : Derives .expression ts t) :
      Forms (.keyword "if" :: (ts ++ [.mark "\x7b"])) (.branch t)
  | otherwise : Forms [.mark "\x7d", .keyword "else", .mark "\x7b"] .otherwise
  | close : Forms [.mark "\x7d"] .close
  | ret {ts : List Token} {t : Tree} (value : Derives .expression ts t) :
      Forms (.keyword "return" :: (ts ++ [.mark ";"])) (.ret t)
  | leave : Forms [.keyword "return", .mark ";"] .leave

inductive Module : List Token → List Line → Prop where
  | nil : Module [] []
  | cons {ts us : List Token} {l : Line} {ls : List Line} (line : Forms ts l) (rest : Module us ls) :
      Module (ts ++ us) (l :: ls)

section Params

variable {s t : String} {r q : List Token}

theorem kind_unique {a b : Kind} (same : a.tokens ++ .mark s :: r = b.tokens ++ .mark t :: q) : a = b ∧ s = t ∧ r = q := by
  cases a <;> cases b <;> simp_all [Kind.tokens]

theorem param_unique {a b : Param} (same : a.tokens ++ .mark s :: r = b.tokens ++ .mark t :: q) : a = b ∧ s = t ∧ r = q := by
  obtain ⟨name, kind⟩ := a
  obtain ⟨another, type⟩ := b
  simp only [Param.tokens, List.cons_append, List.cons.injEq, Token.name.injEq, true_and] at same
  obtain ⟨rfl, same⟩ := same
  obtain ⟨rfl, marks, rest⟩ := kind_unique same
  exact ⟨rfl, marks, rest⟩

-- A list of parameters, ended by its bracket, starts with a name unless it is empty.
theorem paramTokens_cons (p : Param) (params : List Param) (r : List Token) :
    ∃ s more, paramTokens (p :: params) ++ .mark ")" :: r = p.tokens ++ .mark s :: more ∧
      (params = [] ∧ s = ")" ∧ more = r ∨ params ≠ [] ∧ s = "," ∧ more = paramTokens params ++ .mark ")" :: r) := by
  cases params with
  | nil => exact ⟨")", r, rfl, .inl ⟨rfl, rfl, rfl⟩⟩
  | cons q rest => exact ⟨",", paramTokens (q :: rest) ++ .mark ")" :: r, by simp [paramTokens], .inr ⟨by simp, rfl, rfl⟩⟩

theorem params_unique {params others : List Param}
    (same : paramTokens params ++ .mark ")" :: r = paramTokens others ++ .mark ")" :: q) : params = others ∧ r = q := by
  induction params generalizing others with
  | nil =>
    cases others with
    | nil => exact ⟨rfl, (List.cons.inj same).2⟩
    | cons other others =>
      obtain ⟨s, more, spelled, _⟩ := paramTokens_cons other others q
      rw [spelled] at same
      cases (List.cons.inj same).1
  | cons p params ih =>
    obtain ⟨s, more, spelled, ends⟩ := paramTokens_cons p params r
    cases others with
    | nil =>
      rw [spelled] at same
      cases (List.cons.inj same).1
    | cons other others =>
      obtain ⟨t, rest, written, stops⟩ := paramTokens_cons other others q
      rw [spelled, written] at same
      obtain ⟨rfl, rfl, rfl⟩ := param_unique same
      rcases ends with ⟨rfl, rfl, rfl⟩ | ⟨_, rfl, rfl⟩
      · rcases stops with ⟨rfl, _, rfl⟩ | ⟨_, wrong, _⟩
        · exact ⟨rfl, rfl⟩
        · exact absurd wrong (by decide)
      · rcases stops with ⟨_, wrong, _⟩ | ⟨_, _, later⟩
        · exact absurd wrong (by decide)
        · obtain ⟨rfl, rfl⟩ := ih later
          exact ⟨rfl, rfl⟩

end Params

theorem Derives.ends_unique {ts us : List Token} {t u : Tree} {s w : String} {r q : List Token}
    (one : Derives .expression ts t) (two : Derives .expression us u) (ends : s ∉ Level.expression.goesOn)
    (too : w ∉ Level.expression.goesOn) (same : ts ++ .mark s :: r = us ++ .mark w :: q) : ts = us ∧ t = u ∧ r = q := by
  obtain ⟨rfl, rfl⟩ := one.settles _ _ _ _ two same (stops_mark ends _) (stops_mark too _)
  exact ⟨rfl, rfl, (List.cons.inj (List.append_cancel_left same)).2⟩

theorem Derives.not_semicolon {ts : List Token} {t : Tree} (derives : Derives .expression ts t) (r q : List Token) :
    .mark ";" :: r ≠ ts ++ q := by
  obtain ⟨first, rest, rfl, begins⟩ := derives.begins
  intro same
  rcases begins ";" (List.cons.inj same).1.symm with wrong | ⟨wrong, _⟩
  · exact absurd wrong (by decide)
  · exact absurd wrong (by decide)

def NoElse (rest : List Token) : Prop := rest.head? ≠ some (.keyword "else")

-- Two lines at the front of the same tokens are compared from their first tokens on. Only a closing brace
-- has to look at what follows it.
theorem Forms.settles {ts us r q : List Token} {l k : Line} (one : Forms ts l) (two : Forms us k) (same : ts ++ r = us ++ q)
    (stops : NoElse r) (ends : NoElse q) : ts = us ∧ l = k := by
  have semicolon : ";" ∉ Level.expression.goesOn := by decide
  have brace : "\x7b" ∉ Level.expression.goesOn := by decide
  have close : ")" ∉ Level.expression.goesOn := by decide
  have square : "]" ∉ Level.expression.goesOn := by decide
  cases one with
  | buffer =>
    cases two with
    | buffer =>
      simp only [List.cons_append, List.cons.injEq, Token.integer.injEq, Token.name.injEq, true_and, and_true] at same
      obtain ⟨rfl, rfl, rfl, rfl, rfl, _⟩ := same
      exact ⟨rfl, rfl⟩
    | const | function | compute | entry | declare | bind | assign | store | loop | branch | otherwise | close | ret | leave =>
      simp at same
  | const name type value =>
    cases two with
    | const other kind too =>
      simp only [List.cons_append, List.append_assoc, List.cons.injEq, Token.name.injEq, true_and] at same
      obtain ⟨rfl, rfl, same⟩ := same
      obtain ⟨rfl, rfl, _⟩ := value.ends_unique too semicolon semicolon same
      exact ⟨rfl, rfl⟩
    | buffer | function | compute | entry | declare | bind | assign | store | loop | branch | otherwise | close | ret | leave =>
      simp at same
  | function name params result =>
    cases two with
    | function other more kind =>
      simp only [List.cons_append, List.append_assoc, List.cons.injEq, Token.name.injEq, true_and] at same
      obtain ⟨rfl, same⟩ := same
      obtain ⟨rfl, rest⟩ := params_unique same
      cases rest
      exact ⟨rfl, rfl⟩
    | entry =>
      cases params with
      | nil => simp [paramTokens] at same
      | cons p params =>
        obtain ⟨s, more, spelled, _⟩ := paramTokens_cons p params (.mark "->" :: .name result :: .mark "\x7b" :: r)
        simp only [List.cons_append, List.append_assoc, List.cons.injEq, true_and, List.nil_append, spelled] at same
        cases same.2
    | buffer | const | compute | declare | bind | assign | store | loop | branch | otherwise | close | ret | leave =>
      simp at same
  | compute size =>
    cases two with
    | compute =>
      simp only [List.cons_append, List.cons.injEq, Token.integer.injEq, true_and, and_true] at same
      obtain ⟨rfl, _⟩ := same
      exact ⟨rfl, rfl⟩
    | buffer | const | function | entry | declare | bind | assign | store | loop | branch | otherwise | close | ret | leave =>
      simp at same
  | entry name builtin param =>
    cases two with
    | entry other value given =>
      simp only [List.cons_append, List.append_assoc, List.cons.injEq, Token.name.injEq, true_and] at same
      obtain ⟨rfl, rfl, same⟩ := same
      obtain ⟨rfl, _⟩ := param_unique same
      exact ⟨rfl, rfl⟩
    | function other params result =>
      cases params with
      | nil => simp [paramTokens] at same
      | cons p params =>
        obtain ⟨s, more, spelled, _⟩ := paramTokens_cons p params (.mark "->" :: .name result :: .mark "\x7b" :: q)
        simp only [List.cons_append, List.append_assoc, List.cons.injEq, true_and, List.nil_append, spelled] at same
        cases same.2
    | buffer | const | compute | declare | bind | assign | store | loop | branch | otherwise | close | ret | leave =>
      simp at same
  | declare name type value =>
    cases two with
    | declare other kind too =>
      simp only [List.cons_append, List.append_assoc, List.cons.injEq, Token.name.injEq, true_and] at same
      obtain ⟨rfl, rfl, same⟩ := same
      obtain ⟨rfl, rfl, _⟩ := value.ends_unique too semicolon semicolon same
      exact ⟨rfl, rfl⟩
    | buffer | const | function | compute | entry | bind | assign | store | loop | branch | otherwise | close | ret | leave =>
      simp at same
  | bind name value =>
    cases two with
    | bind other too =>
      simp only [List.cons_append, List.append_assoc, List.cons.injEq, Token.name.injEq, true_and] at same
      obtain ⟨rfl, same⟩ := same
      obtain ⟨rfl, rfl, _⟩ := value.ends_unique too semicolon semicolon same
      exact ⟨rfl, rfl⟩
    | buffer | const | function | compute | entry | declare | assign | store | loop | branch | otherwise | close | ret | leave =>
      simp at same
  | assign name value =>
    cases two with
    | assign other too =>
      simp only [List.cons_append, List.append_assoc, List.cons.injEq, Token.name.injEq, true_and] at same
      obtain ⟨rfl, same⟩ := same
      obtain ⟨rfl, rfl, _⟩ := value.ends_unique too semicolon semicolon same
      exact ⟨rfl, rfl⟩
    | buffer | const | function | compute | entry | declare | bind | store | loop | branch | otherwise | close | ret | leave =>
      simp at same
  | store buffer index value =>
    cases two with
    | store other place too =>
      simp only [List.cons_append, List.append_assoc, List.cons.injEq, Token.name.injEq, true_and] at same
      obtain ⟨rfl, same⟩ := same
      obtain ⟨rfl, rfl, same⟩ := index.ends_unique place square square same
      obtain ⟨rfl, rfl, _⟩ := value.ends_unique too semicolon semicolon (List.cons.inj same).2
      exact ⟨rfl, rfl⟩
    | buffer | const | function | compute | entry | declare | bind | assign | loop | branch | otherwise | close | ret | leave =>
      simp at same
  | loop name type updated start test step =>
    cases two with
    | loop other kind target first second third =>
      simp only [List.cons_append, List.append_assoc, List.cons.injEq, Token.name.injEq, true_and] at same
      obtain ⟨rfl, rfl, same⟩ := same
      obtain ⟨rfl, rfl, tests⟩ := start.ends_unique first semicolon semicolon same
      obtain ⟨rfl, rfl, steps⟩ := test.ends_unique second semicolon semicolon tests
      simp only [List.cons.injEq, Token.name.injEq, true_and] at steps
      obtain ⟨rfl, last⟩ := steps
      obtain ⟨rfl, rfl, _⟩ := step.ends_unique third close close last
      exact ⟨rfl, rfl⟩
    | buffer | const | function | compute | entry | declare | bind | assign | store | branch | otherwise | close | ret | leave =>
      simp at same
  | branch test =>
    cases two with
    | branch too =>
      simp only [List.cons_append, List.append_assoc, List.cons.injEq, true_and] at same
      obtain ⟨rfl, rfl, _⟩ := test.ends_unique too brace brace same
      exact ⟨rfl, rfl⟩
    | buffer | const | function | compute | entry | declare | bind | assign | store | loop | otherwise | close | ret | leave =>
      simp at same
  | otherwise =>
    cases two with
    | otherwise => exact ⟨rfl, rfl⟩
    | close =>
      cases same
      exact absurd rfl ends
    | buffer | const | function | compute | entry | declare | bind | assign | store | loop | branch | ret | leave =>
      simp at same
  | close =>
    cases two with
    | close => exact ⟨rfl, rfl⟩
    | otherwise =>
      cases same
      exact absurd rfl stops
    | buffer | const | function | compute | entry | declare | bind | assign | store | loop | branch | ret | leave =>
      simp at same
  | ret value =>
    cases two with
    | ret too =>
      simp only [List.cons_append, List.append_assoc, List.cons.injEq, true_and] at same
      obtain ⟨rfl, rfl, _⟩ := value.ends_unique too semicolon semicolon same
      exact ⟨rfl, rfl⟩
    | leave =>
      simp only [List.cons_append, List.append_assoc, List.cons.injEq, true_and] at same
      exact absurd same.symm (value.not_semicolon _ _)
    | buffer | const | function | compute | entry | declare | bind | assign | store | loop | branch | otherwise | close =>
      simp at same
  | leave =>
    cases two with
    | leave => exact ⟨rfl, rfl⟩
    | ret too =>
      simp only [List.cons_append, List.append_assoc, List.cons.injEq, true_and] at same
      exact absurd same (too.not_semicolon _ _)
    | buffer | const | function | compute | entry | declare | bind | assign | store | loop | branch | otherwise | close =>
      simp at same

theorem Forms.unique {ts : List Token} {l k : Line} (one : Forms ts l) (two : Forms ts k) : l = k :=
  (one.settles (r := []) (q := []) two rfl nofun nofun).2

theorem Forms.begins {ts : List Token} {l : Line} (forms : Forms ts l) : ∃ first rest, ts = first :: rest ∧ first ≠ .keyword "else" := by
  cases forms <;> exact ⟨_, _, rfl, by simp⟩

theorem Module.noElse {ts : List Token} {ls : List Line} (lines : Module ts ls) : NoElse ts := by
  cases lines with
  | nil => nofun
  | cons line rest =>
    obtain ⟨first, more, rfl, other⟩ := line.begins
    intro wrong
    cases wrong
    exact other rfl

theorem Module.unique {ts us : List Token} {ls ks : List Line} (one : Module ts ls) (two : Module us ks) (same : ts = us) :
    ls = ks := by
  induction one generalizing us ks with
  | nil =>
    cases two with
    | nil => rfl
    | cons line rest =>
      obtain ⟨first, more, rfl, _⟩ := line.begins
      cases same
  | cons line rest ih =>
    cases two with
    | nil =>
      obtain ⟨first, more, rfl, _⟩ := line.begins
      cases same
    | cons other later =>
      obtain ⟨rfl, rfl⟩ := line.settles other same rest.noElse later.noElse
      rw [ih later (List.append_cancel_left same)]

theorem Module.append {ts us : List Token} {ls ks : List Line} (one : Module ts ls) (two : Module us ks) :
    Module (ts ++ us) (ls ++ ks) := by
  induction one with
  | nil => exact two
  | cons line _ ih =>
    rw [List.append_assoc]
    exact .cons line ih

end GridKernel.Shader
