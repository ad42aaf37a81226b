import GridKernel.Proofs.Shader.Spelling
import GridKernel.Proofs.Shader.Statements

namespace GridKernel.Shader

def Kind.text : Kind → String
  | .plain name => name
  | .generic callee name => callee ++ "<" ++ name ++ ">"

def Kind.Named : Kind → Prop
  | .plain name => IsName name
  | .generic callee name => callee ∈ generics ∧ IsName name

def Param.text (p : Param) : String := p.name ++ ": " ++ p.kind.text

def Param.Named (p : Param) : Prop := IsName p.name ∧ p.kind.Named

-- A text is an expression, a line or a whole module if its tokens are.
def ReadsAs (text : String) (t : Tree) : Prop := ∃ tokens, lex text.toList = some tokens ∧ Derives .expression tokens t

def StandsAs (text : String) (l : Line) : Prop := ∃ tokens, lex text.toList = some tokens ∧ Forms tokens l

def Holds (text : String) (lines : List Line) : Prop := ∃ tokens, lex text.toList = some tokens ∧ Module tokens lines

theorem Yields.whole {text : List Char} {tokens : List Token} (yields : Yields text tokens []) : lex text = some tokens := by
  unfold Yields at yields
  rw [List.append_nil, lex] at yields
  simpa using yields

theorem Spells.reads {text : String} {tree : Tree} (spells : Spells .expression text tree) (t : Tree) :
    ReadsAs text t ↔ t = tree := by
  obtain ⟨tokens, derives, _, yields⟩ := spells
  have read := (yields [] fun c first => by cases first).whole
  constructor
  · rintro ⟨others, again, derived⟩
    cases read.symm.trans again
    exact derived.unique derives
  · rintro rfl
    exact ⟨tokens, read, derives⟩

-- A line ends with a mark of its own, so anything may follow it.
def SpellsLine (text : String) (l : Line) : Prop := ∃ tokens, Forms tokens l ∧ ∀ rest, Yields text.toList tokens rest

theorem SpellsLine.stands {text : String} {l : Line} (spells : SpellsLine text l) (k : Line) : StandsAs text k ↔ k = l := by
  obtain ⟨tokens, forms, yields⟩ := spells
  have read := (yields []).whole
  constructor
  · rintro ⟨others, again, formed⟩
    cases read.symm.trans again
    exact formed.unique forms
  · rintro rfl
    exact ⟨tokens, read, forms⟩

theorem SpellsLine.indent {text : String} {l : Line} (spells : SpellsLine text l) (depth : Nat) :
    SpellsLine (indent depth text) l := by
  obtain ⟨tokens, forms, yields⟩ := spells
  refine ⟨tokens, forms, fun rest => ?_⟩
  rw [Shader.indent, String.toList_append, String.toList_ofList]
  induction 4 * depth with
  | zero => exact yields rest
  | succ n ih => exact ih.blank

def unlines (texts : List String) : List Char := texts.flatMap fun text => text.toList ++ ['\n']

theorem lines_text (texts : List String) (front : String) :
    (texts.foldl (fun text line => text ++ line ++ "\n") front).toList = front.toList ++ unlines texts := by
  induction texts generalizing front with
  | nil => simp [unlines]
  | cons text texts ih =>
    rw [List.foldl_cons, ih]
    simp [unlines]

def SpellsAll (texts : List String) (lines : List Line) : Prop :=
  ∃ tokens, Module tokens lines ∧ ∀ rest, Yields (unlines texts) tokens rest

namespace SpellsAll

variable {texts more : List String} {lines others : List Line}

theorem nil : SpellsAll [] [] := ⟨[], .nil, Yields.nil⟩

theorem yields_newline (rest : List Char) : Yields ['\n'] [] rest := by
  unfold Yields
  rw [List.singleton_append, lex]
  simp

theorem append (one : SpellsAll texts lines) (two : SpellsAll more others) : SpellsAll (texts ++ more) (lines ++ others) := by
  obtain ⟨ts, first, yields⟩ := one
  obtain ⟨us, second, yielded⟩ := two
  refine ⟨ts ++ us, first.append second, fun rest => ?_⟩
  rw [unlines, List.flatMap_append]
  exact (yields _).append (yielded rest)

theorem line {text : String} {l : Line} (spells : SpellsLine text l) : SpellsAll [text] [l] := by
  obtain ⟨tokens, forms, yields⟩ := spells
  refine ⟨tokens ++ [], .cons forms .nil, fun rest => ?_⟩
  rw [unlines, List.flatMap_singleton]
  exact (yields _).append (yields_newline rest)

theorem cons {text : String} {l : Line} (first : SpellsLine text l) (rest : SpellsAll texts lines) :
    SpellsAll (text :: texts) (l :: lines) := (line first).append rest

theorem blank (spells : SpellsAll texts lines) : SpellsAll ("" :: texts) lines := by
  obtain ⟨tokens, forms, yields⟩ := spells
  exact ⟨tokens, forms, fun rest => (yields_newline _).append (yields rest)⟩

theorem of_forall (all : List.Forall₂ SpellsLine texts lines) : SpellsAll texts lines := by
  induction all with
  | nil => exact nil
  | cons first _ ih => exact cons first ih

theorem map {α : Type} {text : α → String} {line : α → Line} {l : List α} (each : ∀ a ∈ l, SpellsLine (text a) (line a)) :
    SpellsAll (l.map text) (l.map line) := by
  induction l with
  | nil => exact nil
  | cons a l ih =>
    obtain ⟨first, rest⟩ := List.forall_mem_cons.mp each
    exact cons first (ih rest)

theorem flatMap {α : Type} {text : α → List String} {line : α → List Line} {l : List α}
    (each : ∀ a ∈ l, SpellsAll (text a) (line a)) : SpellsAll (l.flatMap text) (l.flatMap line) := by
  induction l with
  | nil => exact nil
  | cons a l ih =>
    obtain ⟨first, rest⟩ := List.forall_mem_cons.mp each
    rw [List.flatMap_cons, List.flatMap_cons]
    exact append first (ih rest)

theorem holds (spells : SpellsAll texts lines) (found : List Line) :
    Holds (texts.foldl (fun text line => text ++ line ++ "\n") "") found ↔ found = lines := by
  obtain ⟨tokens, module, yields⟩ := spells
  have read : lex (texts.foldl (fun text line => text ++ line ++ "\n") "").toList = some tokens := by
    rw [lines_text]
    exact (yields []).whole
  constructor
  · rintro ⟨others, again, held⟩
    cases read.symm.trans again
    exact held.unique module rfl
  · rintro rfl
    exact ⟨tokens, read, module⟩

end SpellsAll

theorem yields_semicolon (rest : List Char) : Yields [';'] [.mark ";"] rest := yields_bracket ";" (by decide) rest

theorem yields_colon (rest : List Char) : Yields [':'] [.mark ":"] rest := yields_bracket ":" (by decide) rest

theorem yields_at (rest : List Char) : Yields ['@'] [.mark "@"] rest := yields_bracket "@" (by decide) rest

theorem yields_block (rest : List Char) : Yields ['\x7b'] [.mark "\x7b"] rest := yields_bracket "\x7b" (by decide) rest

section
variable {name text : String} {ts : List Token} {t : Tree}

theorem yields_assigned (isName : IsName name) (yields : ∀ rest, Cut inName rest → Yields text.toList ts rest) {rest : List Char}
    (stops : Cut inName rest) : Yields (name ++ " = " ++ text).toList (.name name :: .mark "=" :: ts) rest := by
  have spelled : (name ++ " = " ++ text).toList = name.toList ++ ' ' :: (['='] ++ ' ' :: text.toList) := by simp
  have equals : Yields ['='] [.mark "="] (' ' :: (text.toList ++ rest)) :=
    yields_mark "=" (by decide) (by decide) (.cons rfl _)
  rw [spelled]
  exact (yields_name isName (.cons rfl _)).append (equals.append (yields rest stops).blank).blank

theorem yields_declared (word type : String) (listed : word ∈ keywords) (isName : IsName name) (isType : IsName type)
    (yields : ∀ rest, Cut inName rest → Yields text.toList ts rest) (rest : List Char) :
    Yields (word ++ " " ++ name ++ ": " ++ type ++ " = " ++ text ++ ";").toList
      (.keyword word :: .name name :: .mark ":" :: .name type :: .mark "=" :: (ts ++ [.mark ";"])) rest := by
  have spelled : (word ++ " " ++ name ++ ": " ++ type ++ " = " ++ text ++ ";").toList =
      word.toList ++ ' ' :: (name.toList ++ ([':'] ++ ' ' :: ((type ++ " = " ++ text).toList ++ [';']))) := by
    simp
  have assigned : Yields (type ++ " = " ++ text).toList (.name type :: .mark "=" :: ts) ([';'] ++ rest) :=
    yields_assigned isType yields (.cons rfl _)
  have typed := (yields_colon _).append (assigned.append (yields_semicolon rest)).blank
  have colon : Cut inName ([':'] ++ ' ' :: ((type ++ " = " ++ text).toList ++ [';']) ++ rest) := .cons rfl _
  rw [spelled]
  exact (yields_keyword word listed (.cons rfl _)).append ((yields_name isName colon).append typed).blank

theorem line_declare (isName : IsName name) (spells : Spells .expression text t) :
    SpellsLine ("var " ++ name ++ ": f32 = " ++ text ++ ";") (.declare name "f32" t) := by
  obtain ⟨ts, derives, _, yields⟩ := spells
  refine ⟨_, .declare _ _ derives, fun rest => ?_⟩
  have read := yields_declared "var" "f32" (by decide) isName (by decide) yields rest
  have spelled : "var " ++ name ++ ": f32 = " ++ text ++ ";" = "var" ++ " " ++ name ++ ": " ++ "f32" ++ " = " ++ text ++ ";" := by
    rw [← String.toList_inj]
    simp
  rwa [spelled]

theorem line_const (isName : IsName name) (spells : Spells .expression text t) :
    SpellsLine ("const " ++ name ++ ": u32 = " ++ text ++ ";") (.const name "u32" t) := by
  obtain ⟨ts, derives, _, yields⟩ := spells
  refine ⟨_, .const _ _ derives, fun rest => ?_⟩
  have read := yields_declared "const" "u32" (by decide) isName (by decide) yields rest
  have spelled : "const " ++ name ++ ": u32 = " ++ text ++ ";" =
      "const" ++ " " ++ name ++ ": " ++ "u32" ++ " = " ++ text ++ ";" := by
    rw [← String.toList_inj]
    simp
  rwa [spelled]

theorem line_assign (isName : IsName name) (spells : Spells .expression text t) :
    SpellsLine (name ++ " = " ++ text ++ ";") (.assign name t) := by
  obtain ⟨ts, derives, _, yields⟩ := spells
  have spelled : (name ++ " = " ++ text ++ ";").toList = (name ++ " = " ++ text).toList ++ [';'] := by simp
  refine ⟨_, .assign _ derives, fun rest => ?_⟩
  rw [spelled]
  exact (yields_assigned isName yields (.cons rfl rest)).append (yields_semicolon rest)

theorem line_bind (isName : IsName name) (spells : Spells .expression text t) :
    SpellsLine ("let " ++ name ++ " = " ++ text ++ ";") (.bind name t) := by
  obtain ⟨ts, derives, _, yields⟩ := spells
  have spelled : ("let " ++ name ++ " = " ++ text ++ ";").toList = "let".toList ++ ' ' :: ((name ++ " = " ++ text).toList ++ [';']) := by
    simp
  refine ⟨_, .bind _ derives, fun rest => ?_⟩
  have assigned := (yields_assigned isName yields (.cons rfl rest)).append (yields_semicolon rest)
  rw [spelled]
  exact (yields_keyword "let" (by decide) (.cons rfl _)).append assigned.blank

theorem line_ret (spells : Spells .expression text t) : SpellsLine ("return " ++ text ++ ";") (.ret t) := by
  obtain ⟨ts, derives, _, yields⟩ := spells
  have spelled : ("return " ++ text ++ ";").toList = "return".toList ++ ' ' :: (text.toList ++ [';']) := by simp
  refine ⟨_, .ret derives, fun rest => ?_⟩
  rw [spelled]
  exact (yields_keyword "return" (by decide) (.cons rfl _)).append ((yields _ (.cons rfl _)).append (yields_semicolon rest)).blank

theorem line_leave : SpellsLine "return;" .leave := by
  have spelled : "return;".toList = "return".toList ++ [';'] := by decide
  refine ⟨_, .leave, fun rest => ?_⟩
  rw [spelled]
  exact (yields_keyword "return" (by decide) (.cons rfl _)).append (yields_semicolon rest)

theorem line_branch (spells : Spells .expression text t) : SpellsLine ("if (" ++ text ++ ") \x7b") (.branch t) := by
  obtain ⟨ts, derives, _, yields⟩ := spells.paren.singular.expression
  have spelled : ("if (" ++ text ++ ") \x7b").toList = "if".toList ++ ' ' :: (("(" ++ text ++ ")").toList ++ ' ' :: ['\x7b']) := by
    simp
  refine ⟨_, .branch derives, fun rest => ?_⟩
  rw [spelled]
  exact (yields_keyword "if" (by decide) (.cons rfl _)).append ((yields _ (.cons rfl _)).append (yields_block rest).blank).blank

theorem line_close : SpellsLine "\x7d" .close := ⟨_, .close, yields_bracket "\x7d" (by decide)⟩

theorem line_otherwise : SpellsLine "\x7d else \x7b" .otherwise := by
  have spelled : "\x7d else \x7b".toList = ['\x7d'] ++ ' ' :: ("else".toList ++ ' ' :: ['\x7b']) := by decide
  refine ⟨_, .otherwise, fun rest => ?_⟩
  have word : Yields ("else".toList ++ ' ' :: ['\x7b']) [.keyword "else", .mark "\x7b"] rest :=
    (yields_keyword "else" (by decide) (.cons rfl _)).append (yields_block rest).blank
  rw [spelled]
  exact (yields_bracket "\x7d" (by decide) _).append word.blank

theorem line_loop {stop : String} {u : Tree} (isName : IsName name) (one : Spells .expression text t)
    (two : Spells .expression (name ++ " < " ++ stop) u) {v : Tree} (three : Spells .expression (name ++ " + 1.0") v) :
    SpellsLine ("for (var " ++ name ++ ": f32 = " ++ text ++ "; " ++ name ++ " < " ++ stop ++ "; " ++ name ++ " = " ++ name ++
        " + 1.0) \x7b")
      (.loop name "f32" t u name v) := by
  obtain ⟨ts, start, _, yields⟩ := one
  obtain ⟨us, test, _, tested⟩ := two
  obtain ⟨vs, step, _, stepped⟩ := three
  have spelled : ("for (var " ++ name ++ ": f32 = " ++ text ++ "; " ++ name ++ " < " ++ stop ++ "; " ++ name ++ " = " ++ name ++
      " + 1.0) \x7b").toList =
      "for".toList ++ ' ' :: (['('] ++ (("var" ++ " " ++ name ++ ": " ++ "f32" ++ " = " ++ text ++ ";").toList ++
        ' ' :: ((name ++ " < " ++ stop).toList ++ ([';'] ++
        ' ' :: ((name ++ " = " ++ (name ++ " + 1.0")).toList ++ ([')'] ++ ' ' :: ['\x7b'])))))) := by
    simp
  refine ⟨_, .loop name "f32" name start test step, fun rest => ?_⟩
  -- From the end of the line backwards: each part is read up to the mark that follows it.
  have closed : Yields ([')'] ++ ' ' :: ['\x7b']) ([.mark ")"] ++ [.mark "\x7b"]) rest :=
    (yields_close _).append (yields_block rest).blank
  have updated := (yields_assigned isName stepped (.cons rfl _)).append closed
  have ended := (tested _ (.cons rfl _)).append ((yields_semicolon _).append updated.blank)
  have opened := (yields_open _).append
    ((yields_declared "var" "f32" (by decide) isName (by decide) yields _).append ended.blank)
  have line := (yields_keyword "for" (by decide) (.cons rfl _)).append opened.blank
  rw [spelled]
  simpa only [List.cons_append, List.append_assoc, List.nil_append] using line

theorem line_store {index : String} {i : Tree} (isName : IsName name) (one : Spells .expression index i)
    (two : Spells .expression text t) : SpellsLine (name ++ "[" ++ index ++ "] = " ++ text ++ ";") (.store name i t) := by
  obtain ⟨ts, place, _, yields⟩ := one
  obtain ⟨us, value, _, yielded⟩ := two
  have spelled : (name ++ "[" ++ index ++ "] = " ++ text ++ ";").toList =
      name.toList ++ (['['] ++ (index.toList ++ ([']'] ++ ' ' :: (['='] ++ ' ' :: (text.toList ++ [';']))))) := by
    simp
  refine ⟨_, .store _ place value, fun rest => ?_⟩
  have equals : Yields ['='] [.mark "="] (' ' :: (text.toList ++ [';']) ++ rest) :=
    yields_mark "=" (by decide) (by decide) (.cons rfl _)
  have assigned := equals.append ((yielded _ (.cons rfl _)).append (yields_semicolon rest)).blank
  have closed := (yields_bracket "]" (by decide) _).append assigned.blank
  have opened := (yields_bracket "[" (by decide) _).append ((yields _ (.cons rfl _)).append closed)
  rw [spelled]
  exact (yields_name isName (.cons rfl _)).append opened

theorem yields_param {p : Param} (named : p.Named) {rest : List Char} (stops : Cut inName rest) (apart : Cut joins rest) :
    Yields p.text.toList p.tokens rest := by
  have spelled : p.text.toList = p.name.toList ++ ([':'] ++ ' ' :: p.kind.text.toList) := by simp [Param.text]
  have kind : Yields p.kind.text.toList p.kind.tokens rest := by
    have type := named.2
    cases shape : p.kind with
    | plain name =>
      rw [shape] at type
      exact yields_name type stops
    | generic callee name =>
      rw [shape] at type
      exact yields_generic type.1 type.2 apart
  rw [spelled]
  exact (yields_name named.1 (.cons rfl _)).append ((yields_colon _).append kind.blank)

theorem yields_params {params : List Param} (named : ∀ p ∈ params, p.Named) (rest : List Char) :
    Yields (Text.joined ", " (params.map Param.text)).toList (paramTokens params) (')' :: rest) := by
  induction params with
  | nil => exact Yields.nil _
  | cons p params ih =>
    obtain ⟨first, later⟩ := List.forall_mem_cons.mp named
    cases params with
    | nil => exact yields_param first (.cons rfl _) (.cons rfl _)
    | cons q params =>
      have spelled : (Text.joined ", " ((p :: q :: params).map Param.text)).toList =
          p.text.toList ++ ([','] ++ ' ' :: (Text.joined ", " ((q :: params).map Param.text)).toList) := by
        change (p.text ++ ", " ++ Text.joined ", " ((q :: params).map Param.text)).toList = _
        simp
      have comma := (yields_bracket "," (by decide) _).append (ih later).blank
      rw [spelled]
      exact (yields_param first (.cons rfl _) (.cons rfl _)).append comma

theorem line_function {params : List Param} (isName : IsName name) (named : ∀ p ∈ params, p.Named) :
    SpellsLine (headLine name (params.map fun p => (p.name, p.kind.text))) (.function name params "f32") := by
  have texts : (params.map fun p => (p.name, p.kind.text)).map (fun p => p.1 ++ ": " ++ p.2) = params.map Param.text := by
    rw [List.map_map]
    rfl
  have spelled : (headLine name (params.map fun p => (p.name, p.kind.text))).toList =
      "fn".toList ++ ' ' :: (name.toList ++ (['('] ++ ((Text.joined ", " (params.map Param.text)).toList ++
        ([')'] ++ ' ' :: ("->".toList ++ ' ' :: ("f32".toList ++ ' ' :: ['\x7b'])))))) := by
    rw [headLine, texts]
    simp
  refine ⟨_, .function name params "f32", fun rest => ?_⟩
  have result : Yields ("f32".toList ++ ' ' :: ['\x7b']) [.name "f32", .mark "\x7b"] rest :=
    (yields_name (by decide) (.cons rfl _)).append (yields_block rest).blank
  have arrow := (yields_mark "->" (by decide) (by decide) (.cons rfl _)).append result.blank
  have closed := (yields_params named _).append ((yields_close _).append arrow.blank)
  have opened := (yields_name isName (.cons rfl _)).append ((yields_open _).append closed)
  rw [spelled]
  simpa only [List.cons_append, List.append_assoc, List.nil_append] using
    (yields_keyword "fn" (by decide) (.cons rfl _)).append opened.blank

theorem yields_attribute (isName : IsName name) (n : Nat) (rest : List Char) :
    Yields ("@" ++ name ++ "(" ++ toString n ++ ")").toList
      [.mark "@", .name name, .mark "(", .integer n false, .mark ")"] rest := by
  have spelled : ("@" ++ name ++ "(" ++ toString n ++ ")").toList =
      ['@'] ++ (name.toList ++ (['('] ++ ((integerText n false).toList ++ [')']))) := by
    simp [integerText]
  have number := (yields_integer n false (.cons rfl _) (by simp)).append (yields_close rest)
  rw [spelled]
  exact (yields_at _).append
    ((yields_name isName (.cons rfl _)).append ((yields_open _).append number))

theorem line_compute (size : Nat) : SpellsLine ("@compute @workgroup_size(" ++ toString size ++ ")") (.compute size) := by
  have spelled : ("@compute @workgroup_size(" ++ toString size ++ ")").toList =
      ['@'] ++ ("compute".toList ++ ' ' :: ("@" ++ "workgroup_size" ++ "(" ++ toString size ++ ")").toList) := by
    simp
  have isName : IsName "workgroup_size" := by decide
  refine ⟨_, .compute size, fun rest => ?_⟩
  have stage : Yields ("compute".toList ++ ' ' :: ("@" ++ "workgroup_size" ++ "(" ++ toString size ++ ")").toList) _ rest :=
    (yields_name (by decide) (.cons rfl _)).append (yields_attribute isName size rest).blank
  rw [spelled]
  exact (yields_at _).append stage

theorem line_entry {builtin : String} {param : Param} (isName : IsName name) (isBuiltin : IsName builtin) (named : param.Named) :
    SpellsLine ("fn " ++ name ++ "(@builtin(" ++ builtin ++ ") " ++ param.text ++ ") \x7b") (.entry name builtin param) := by
  have spelled : ("fn " ++ name ++ "(@builtin(" ++ builtin ++ ") " ++ param.text ++ ") \x7b").toList =
      "fn".toList ++ ' ' :: (name.toList ++ (['('] ++ (['@'] ++ ("builtin".toList ++ (['('] ++ (builtin.toList ++ ([')'] ++
        ' ' :: (param.text.toList ++ ([')'] ++ ' ' :: ['\x7b'])))))))))  := by
    simp
  refine ⟨_, .entry name builtin param, fun rest => ?_⟩
  have closed : Yields ([')'] ++ ' ' :: ['\x7b']) ([.mark ")"] ++ [.mark "\x7b"]) rest :=
    (yields_close _).append (yields_block rest).blank
  have given := (yields_param named (.cons rfl _) (.cons rfl _)).append closed
  have value := (yields_name isBuiltin (.cons rfl _)).append ((yields_close _).append given.blank)
  have word : IsName "builtin" := by decide
  have named' := (yields_name word (.cons rfl _)).append ((yields_open _).append value)
  have marked := (yields_at _).append named'
  have opened := (yields_name isName (.cons rfl _)).append ((yields_open _).append marked)
  rw [spelled]
  simpa only [List.cons_append, List.append_assoc, List.nil_append] using
    (yields_keyword "fn" (by decide) (.cons rfl _)).append opened.blank

theorem line_buffer {access element : String} (number : Nat) (isAccess : IsName access) (isName : IsName name)
    (isElement : IsName element) :
    SpellsLine ("@group(0) @binding(" ++ toString number ++ ") var<storage, " ++ access ++ "> " ++ name ++ ": array<" ++
      element ++ ">;") (.buffer 0 number access name element) := by
  have spelled : ("@group(0) @binding(" ++ toString number ++ ") var<storage, " ++ access ++ "> " ++ name ++ ": array<" ++
      element ++ ">;").toList =
      ("@" ++ "group" ++ "(" ++ toString 0 ++ ")").toList ++ ' ' :: (("@" ++ "binding" ++ "(" ++ toString number ++ ")").toList ++
        ' ' :: ("var".toList ++ ("<".toList ++ ("storage".toList ++ (",".toList ++ ' ' :: (access.toList ++ (">".toList ++
          ' ' :: (name.toList ++ ([':'] ++ ' ' :: (("array" ++ "<" ++ element ++ ">").toList ++ [';'])))))))))) := by
    simp
  have group : IsName "group" := by decide
  have binding : IsName "binding" := by decide
  have storage : IsName "storage" := by decide
  have array : "array" ∈ generics := by decide
  refine ⟨_, .buffer 0 number access name element, fun rest => ?_⟩
  -- From the end of the line backwards.
  have type := (yields_generic array isElement (.cons rfl _)).append (yields_semicolon rest)
  have typed := (yields_name isName (.cons rfl _)).append ((yields_colon _).append type.blank)
  have closes := (yields_mark ">" (by decide) (by decide) (.cons rfl _)).append typed.blank
  have accessed := (yields_bracket "," (by decide) _).append ((yields_name isAccess (.cons rfl _)).append closes).blank
  have space := (yields_name storage (.cons rfl _)).append accessed
  have opens := (yields_mark "<" (by decide) (by decide) (.cons rfl _)).append space
  have stored := (yields_keyword "var" (by decide) (.cons rfl _)).append opens
  have bound := (yields_attribute binding number _).append stored.blank
  rw [spelled]
  simpa only [List.cons_append, List.append_assoc, List.nil_append] using (yields_attribute group 0 _).append bound.blank

end

end GridKernel.Shader
