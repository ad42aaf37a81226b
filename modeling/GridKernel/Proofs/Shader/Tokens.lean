import GridKernel.Function.Definition
import GridKernel.Number.Decimal
import GridKernel.Text
import Mathlib.Data.List.Basic
import Mathlib.Data.List.TakeWhile

namespace GridKernel.Shader

inductive Token where
  | number (value : Decimal)
  | integer (value : Nat) (unsigned : Bool)
  | bits (value : Nat)
  | name (text : String)
  | keyword (text : String)
  | mark (text : String)
deriving DecidableEq

-- The words that take a type in angle brackets are kept apart from names, as the others are.
def generics : List String := ["array", "bitcast", "vec3"]

def keywords : List String :=
  ["alias", "break", "case", "const", "const_assert", "continue", "continuing", "default", "diagnostic", "discard",
    "else", "enable", "false", "fn", "for", "if", "let", "loop", "override", "requires", "return", "struct", "switch",
    "true", "var", "while"] ++ generics

-- The beginnings of comments count as marks, which no rule of the grammar has.
def marks : List String :=
  ["<<=", ">>=", "&&", "||", "->", "--", "++", "==", "!=", "<=", ">=", "<<", ">>", "+=", "-=", "*=", "/=", "%=", "&=",
    "|=", "^=", "//", "/*", "&", "|", "^", "~", "!", "@", "=", "<", ">", "+", "-", "*", "/", "%", ".", ",", ":", ";",
    "(", ")", "[", "]", "\x7b", "\x7d"]

def startsName (c : Char) : Bool := c.isAlpha || c = '_'

def inName (c : Char) : Bool := c.isAlphanum || c = '_'

def digits (cs : List Char) : List Char := cs.takeWhile Char.isDigit

def pastDigits (cs : List Char) : List Char := cs.dropWhile Char.isDigit

def fixedPoint (cs : List Char) : (Decimal × Bool) × List Char :=
  match pastDigits cs with
  | '.' :: rest =>
    ((⟨Nat.ofDigitChars 10 (digits cs ++ digits rest) 0, -(digits rest).length⟩, true), pastDigits rest)
  | rest => ((⟨Nat.ofDigitChars 10 (digits cs) 0, 0⟩, false), rest)

def natural? (cs : List Char) : Option (Nat × List Char) :=
  if digits cs = [] then none else some (Nat.ofDigitChars 10 (digits cs) 0, pastDigits cs)

def power? : List Char → Option (Int × List Char)
  | '-' :: cs => (natural? cs).map fun p => (-p.1, p.2)
  | '+' :: cs => (natural? cs).map fun p => (p.1, p.2)
  | cs => (natural? cs).map fun p => (p.1, p.2)

def withPower (d : Decimal) (cs : List Char) : Option (Decimal × List Char) :=
  (power? cs).map fun p => (⟨d.digits, d.exponent + p.1⟩, p.2)

-- A number has a point or a power of ten. Suffixes are not part of this language.
def number? (cs : List Char) : Option (Decimal × List Char) :=
  let read := fixedPoint cs
  let whole :=
    match read.2 with
    | 'e' :: rest => withPower read.1.1 rest
    | 'E' :: rest => withPower read.1.1 rest
    | rest => if read.1.2 then some (read.1.1, rest) else none
  whole.filter fun p => !p.2.head?.any inName

def integer? (cs : List Char) : Option ((Nat × Bool) × List Char) :=
  let whole := (natural? cs).map fun p =>
    match p.2 with
    | 'u' :: rest => ((p.1, true), rest)
    | rest => ((p.1, false), rest)
  whole.filter fun p => !p.2.head?.any inName

def numeral? (cs : List Char) : Option (Token × List Char) :=
  ((number? cs).map fun p => (.number p.1, p.2)).or ((integer? cs).map fun p => (.integer p.1.1 p.1.2, p.2))

def isHex (c : Char) : Bool := (Text.hexDigit? c).isSome

def bits? (cs : List Char) : Option (Nat × List Char) :=
  match cs.dropWhile isHex with
  | 'u' :: rest =>
    match Text.hexValue? (cs.takeWhile isHex) with
    | some value => if value < 0x100000000 ∧ !rest.head?.any inName then some (value, rest) else none
    | none => none
  | _ => none

def mark? (cs : List Char) : Option (String × List Char) :=
  ([3, 2, 1].find? fun n => n ≤ cs.length ∧ String.ofList (cs.take n) ∈ marks).map
    fun n => (String.ofList (cs.take n), cs.drop n)

def wordToken (word : String) : Token := if word ∈ keywords then .keyword word else .name word

def token? (c : Char) (cs : List Char) : Option (Token × List Char) :=
  if startsName c then
    some (wordToken (String.ofList (c :: cs.takeWhile inName)), cs.dropWhile inName)
  else if c = '0' ∧ cs.head? = some 'x' then (bits? (cs.drop 1)).map fun p => (.bits p.1, p.2)
  else if c.isDigit ∨ c = '.' ∧ cs.head?.any Char.isDigit then numeral? (c :: cs)
  else (mark? (c :: cs)).map fun p => (.mark p.1, p.2)

theorem natural?_shorter {cs after : List Char} {n : Nat} (read : natural? cs = some (n, after)) :
    after.length ≤ cs.length := by
  unfold natural? at read
  split at read
  · cases read
  · cases read
    exact (List.dropWhile_sublist _).length_le

theorem power?_shorter {cs after : List Char} {n : Int} (read : power? cs = some (n, after)) :
    after.length ≤ cs.length := by
  unfold power? at read
  split at read
  · obtain ⟨p, found, same⟩ := Option.map_eq_some_iff.mp read
    cases same
    exact Nat.le_succ_of_le (natural?_shorter found)
  · obtain ⟨p, found, same⟩ := Option.map_eq_some_iff.mp read
    cases same
    exact Nat.le_succ_of_le (natural?_shorter found)
  · obtain ⟨p, found, same⟩ := Option.map_eq_some_iff.mp read
    cases same
    exact natural?_shorter found

theorem withPower_shorter {d e : Decimal} {cs after : List Char} (read : withPower d cs = some (e, after)) :
    after.length ≤ cs.length := by
  obtain ⟨p, found, same⟩ := Option.map_eq_some_iff.mp read
  cases same
  exact power?_shorter found

theorem fixedPoint_shorter {c : Char} (cs : List Char) (starts : c.isDigit = true ∨ c = '.') :
    (fixedPoint (c :: cs)).2.length ≤ cs.length := by
  have past (cs : List Char) : (pastDigits cs).length ≤ cs.length := (List.dropWhile_sublist _).length_le
  rcases starts with digit | rfl
  · have skip : pastDigits (c :: cs) = pastDigits cs := List.dropWhile_cons_of_pos digit
    have here := past cs
    unfold fixedPoint
    rw [skip]
    split
    · rename_i rest point
      rw [point, List.length_cons] at here
      have beyond := past rest
      dsimp only
      omega
    · exact here
  · exact past cs

theorem number?_shorter {c : Char} {cs after : List Char} {d : Decimal} (starts : c.isDigit = true ∨ c = '.')
    (read : number? (c :: cs) = some (d, after)) : after.length ≤ cs.length := by
  have front := fixedPoint_shorter cs starts
  unfold number? at read
  have whole := (Option.filter_eq_some_iff.mp read).1
  generalize fixedPoint (c :: cs) = point at front whole
  split at whole
  · rename_i rest more
    rw [more, List.length_cons] at front
    have back := withPower_shorter whole
    omega
  · rename_i rest more
    rw [more, List.length_cons] at front
    have back := withPower_shorter whole
    omega
  · split at whole
    · cases whole
      exact front
    · cases whole

theorem integer?_shorter {c : Char} {cs after : List Char} {n : Nat × Bool} (read : integer? (c :: cs) = some (n, after)) :
    after.length ≤ cs.length := by
  obtain ⟨p, found, same⟩ := Option.map_eq_some_iff.mp (Option.filter_eq_some_iff.mp read).1
  have front : p.2.length ≤ cs.length := by
    unfold natural? digits pastDigits at found
    split at found
    · cases found
    · rename_i some
      cases found
      by_cases digit : c.isDigit = true
      · rw [List.dropWhile_cons_of_pos digit]
        exact (List.dropWhile_sublist _).length_le
      · exact absurd (List.takeWhile_cons_of_neg digit) some
  split at same
  · rename_i rest suffixed
    cases same
    rw [suffixed, List.length_cons] at front
    omega
  · cases same
    exact front

theorem numeral?_shorter {c : Char} {cs after : List Char} {t : Token} (starts : c.isDigit = true ∨ c = '.')
    (read : numeral? (c :: cs) = some (t, after)) : after.length ≤ cs.length := by
  rcases Option.or_eq_some_iff.mp read with point | ⟨_, whole⟩
  · obtain ⟨p, found, same⟩ := Option.map_eq_some_iff.mp point
    cases same
    exact number?_shorter starts found
  · obtain ⟨p, found, same⟩ := Option.map_eq_some_iff.mp whole
    cases same
    exact integer?_shorter found

theorem bits?_shorter {cs after : List Char} {n : Nat} (read : bits? cs = some (n, after)) : after.length ≤ cs.length := by
  have past : (cs.dropWhile isHex).length ≤ cs.length := (List.dropWhile_sublist _).length_le
  unfold bits? at read
  split at read
  · rename_i rest more
    rw [more, List.length_cons] at past
    split at read
    · split at read
      · cases read
        omega
      · cases read
    · cases read
  · cases read

theorem mark?_shorter {c : Char} {cs after : List Char} {text : String} (read : mark? (c :: cs) = some (text, after)) :
    after.length ≤ cs.length := by
  obtain ⟨n, found, same⟩ := Option.map_eq_some_iff.mp read
  cases same
  have positive : ∀ n ∈ [3, 2, 1], 0 < n := by decide
  have some := positive n (List.mem_of_find?_eq_some found)
  rw [List.length_drop, List.length_cons]
  omega

-- A token has at least its first character.
theorem token?_shorter {c : Char} {cs after : List Char} {t : Token} (read : token? c cs = some (t, after)) :
    after.length ≤ cs.length := by
  unfold token? at read
  split at read
  · cases read
    exact (List.dropWhile_sublist _).length_le
  split at read
  · obtain ⟨p, found, same⟩ := Option.map_eq_some_iff.mp read
    cases same
    have short := bits?_shorter found
    rw [List.length_drop] at short
    omega
  split at read
  · rename_i starts
    exact numeral?_shorter (starts.imp_right And.left) read
  · obtain ⟨p, found, same⟩ := Option.map_eq_some_iff.mp read
    cases same
    exact mark?_shorter found

def lex (cs : List Char) : Option (List Token) :=
  match cs with
  | [] => some []
  | c :: rest =>
    if c.isWhitespace then lex rest
    else
      match _read : token? c rest with
      | none => none
      | some (t, after) => (lex after).map (t :: ·)
termination_by cs.length
decreasing_by
  · exact Nat.lt_succ_self _
  · exact Nat.lt_succ_of_le (token?_shorter _read)

theorem lex_blank (cs : List Char) : lex (' ' :: cs) = lex cs := by
  rw [lex]
  rfl

theorem lex_token {c : Char} {cs after : List Char} {t : Token} (shows : c.isWhitespace = false)
    (read : token? c cs = some (t, after)) : lex (c :: cs) = (lex after).map (t :: ·) := by
  rw [lex, if_neg (Bool.eq_false_iff.mp shows)]
  split
  · rename_i none
    cases none.symm.trans read
  · rename_i some
    cases some.symm.trans read
    rfl

-- A piece of text in front of some rest is read as its own tokens.
def Yields (text : List Char) (tokens : List Token) (rest : List Char) : Prop :=
  lex (text ++ rest) = (lex rest).map (tokens ++ ·)

-- The rest does not go on with a character of the class.
def Cut (p : Char → Bool) (rest : List Char) : Prop := ∀ c, rest.head? = some c → p c = false

theorem Cut.cons {p : Char → Bool} {c : Char} (apart : p c = false) (rest : List Char) : Cut p (c :: rest) := by
  intro d first
  cases first
  exact apart

theorem Yields.append {text more : List Char} {tokens others : List Token} {rest : List Char}
    (one : Yields text tokens (more ++ rest)) (two : Yields more others rest) :
    Yields (text ++ more) (tokens ++ others) rest := by
  unfold Yields at *
  rw [List.append_assoc, one, two, Option.map_map]
  congr 1
  funext last
  simp

theorem Yields.token {c : Char} {cs rest : List Char} {t : Token} (shows : c.isWhitespace = false)
    (read : token? c (cs ++ rest) = some (t, rest)) : Yields (c :: cs) [t] rest :=
  lex_token shows read

theorem yields_blank (rest : List Char) : Yields [' '] [] rest := by
  unfold Yields
  rw [List.singleton_append, lex_blank]
  simp

theorem takeWhile_stops {p : Char → Bool} {cs rest : List Char} (all : ∀ c ∈ cs, p c = true)
    (stops : Cut p rest) : (cs ++ rest).takeWhile p = cs ∧ (cs ++ rest).dropWhile p = rest := by
  rw [List.takeWhile_append_of_pos all, List.dropWhile_append_of_pos all]
  cases rest with
  | nil => simp
  | cons c rest =>
    have stop : p c = false := stops c rfl
    rw [List.takeWhile_cons_of_neg (by simp [stop]), List.dropWhile_cons_of_neg (by simp [stop])]
    simp

theorem shows_of {p : Char → Bool} {c : Char} (member : p c = true)
    (blanks : [' ', '\t', '\r', '\n'].any p = false) : c.isWhitespace = false := by
  by_contra blank
  rw [Bool.not_eq_false, Char.isWhitespace] at blank
  have listed : c ∈ [' ', '\t', '\r', '\n'] := by simpa [or_assoc] using blank
  exact List.any_eq_false.mp blanks c listed member

def IsName (word : String) : Prop := isIdentifier word = true ∧ word ∉ keywords

instance (word : String) : Decidable (IsName word) :=
  inferInstanceAs (Decidable (isIdentifier word = true ∧ word ∉ keywords))

theorem yields_word {word : String} (ident : isIdentifier word = true) {rest : List Char}
    (stops : Cut inName rest) : Yields word.toList [wordToken word] rest := by
  unfold isIdentifier at ident
  split at ident
  · cases ident
  · rename_i first more spelled
    rw [Bool.and_eq_true, List.all_eq_true] at ident
    obtain ⟨start, all⟩ : startsName first = true ∧ ∀ c ∈ more, inName c = true := ident
    obtain ⟨taken, left⟩ := takeWhile_stops (p := inName) all stops
    rw [spelled]
    apply Yields.token (shows_of start (by decide))
    unfold token?
    rw [if_pos start, taken, left, ← spelled, String.ofList_toList]

theorem yields_name {word : String} (name : IsName word) {rest : List Char}
    (stops : Cut inName rest) : Yields word.toList [.name word] rest := by
  have read := yields_word name.1 stops
  rwa [wordToken, if_neg name.2] at read

-- Characters that can stand in a mark behind its first.
def joins (c : Char) : Bool := c ∈ ['<', '>', '=', '&', '|', '-', '+', '/', '*']

theorem joins_of_mark {k : String} (listed : k ∈ marks) {c : Char} (inside : c ∈ k.toList.drop 1) : joins c = true := by
  have all : marks.all (fun k => (k.toList.drop 1).all joins) = true := by decide
  exact List.all_eq_true.mp (List.all_eq_true.mp all k listed) c inside

theorem not_joins {p : Char → Bool} {c : Char} (member : p c = true)
    (apart : ['<', '>', '=', '&', '|', '-', '+', '/', '*'].any p = false) : joins c = false := by
  by_contra joined
  exact List.any_eq_false.mp apart c (of_decide_eq_true (eq_true_of_ne_false joined)) member

theorem mark_length : ∀ k ∈ marks, k.toList.length = 1 ∨ k.toList.length = 2 ∨ k.toList.length = 3 := by decide

theorem mark?_of_stops {m : String} (listed : m ∈ marks) {rest : List Char}
    (stops : ∀ k ∈ marks, ∀ c, rest.head? = some c → ¬ m.toList ++ [c] <+: k.toList) :
    mark? (m.toList ++ rest) = some (m, rest) := by
  have hit : m.toList.length ≤ (m.toList ++ rest).length ∧
      String.ofList ((m.toList ++ rest).take m.toList.length) ∈ marks := by
    rw [List.take_left, String.ofList_toList]
    exact ⟨by simp, listed⟩
  have skip (n : Nat) (longer : m.toList.length < n) :
      ¬ (n ≤ (m.toList ++ rest).length ∧ String.ofList ((m.toList ++ rest).take n) ∈ marks) := by
    rintro ⟨fits, long⟩
    cases rest with
    | nil =>
      rw [List.append_nil] at fits
      omega
    | cons c rest =>
      apply stops _ long c rfl
      rw [String.toList_ofList, show m.toList ++ c :: rest = m.toList ++ [c] ++ rest by simp, List.prefix_take_iff]
      refine ⟨List.prefix_append _ _, ?_⟩
      rw [List.length_append, List.length_singleton]
      exact longer
  unfold mark?
  have found : [3, 2, 1].find? (fun n => decide (n ≤ (m.toList ++ rest).length ∧
      String.ofList ((m.toList ++ rest).take n) ∈ marks)) = some m.toList.length := by
    rcases mark_length m listed with one | two | three
    · rw [one] at hit skip ⊢
      rw [List.find?_cons_of_neg (by simpa using skip 3 (by decide)),
        List.find?_cons_of_neg (by simpa using skip 2 (by decide)), List.find?_cons_of_pos (by simpa using hit)]
    · rw [two] at hit skip ⊢
      rw [List.find?_cons_of_neg (by simpa using skip 3 (by decide)), List.find?_cons_of_pos (by simpa using hit)]
    · rw [three] at hit ⊢
      rw [List.find?_cons_of_pos (by simpa using hit)]
  rw [found, Option.map_some, List.take_left, List.drop_left, String.ofList_toList]

theorem mark_start : ∀ k ∈ marks, ∀ c, k.toList.head? = some c →
    startsName c = false ∧ c.isDigit = false ∧ c.isWhitespace = false ∧ (c ≠ '.' ∨ k = ".") := by
  have all : ∀ k ∈ marks, k.toList.head?.all fun c =>
      startsName c = false ∧ c.isDigit = false ∧ c.isWhitespace = false ∧ (c ≠ '.' ∨ k = ".") := by decide
  intro k listed c first
  simpa [first] using all k listed

theorem yields_of_mark? {m : String} (listed : m ∈ marks) {rest : List Char}
    (point : m = "." → Cut Char.isDigit rest) (read : mark? (m.toList ++ rest) = some (m, rest)) :
    Yields m.toList [.mark m] rest := by
  cases spelled : m.toList with
  | nil =>
    rcases mark_length m listed with none | none | none <;> rw [spelled] at none <;> cases none
  | cons c cs =>
    obtain ⟨word, digit, shows, dot⟩ := mark_start m listed c (by rw [spelled]; rfl)
    apply Yields.token shows
    rw [spelled] at read
    have zero : c ≠ '0' := by
      rintro rfl
      cases digit
    have plain : ¬ (c.isDigit = true ∨ c = '.' ∧ ((cs ++ rest).head?.any Char.isDigit) = true) := by
      rintro (number | ⟨rfl, number⟩)
      · cases digit.symm.trans number
      · obtain rfl := dot.resolve_left (not_not_intro rfl)
        obtain rfl : cs = [] := by
          have spelling : ".".toList = ['.'] := by decide
          rw [spelling] at spelled
          cases spelled
          rfl
        cases rest with
        | nil => cases number
        | cons d rest =>
          have stop := point rfl d rfl
          simp only [List.nil_append, List.head?_cons, Option.any_some] at number
          cases stop.symm.trans number
    unfold token?
    rw [if_neg (by simp [word]), if_neg (by simp [zero]), if_neg plain, ← List.cons_append, read]
    rfl

theorem yields_mark (m : String) (listed : m ∈ marks) (other : m ≠ ".") {rest : List Char}
    (stops : Cut joins rest) : Yields m.toList [.mark m] rest := by
  apply yields_of_mark? listed (fun same => absurd same other)
  apply mark?_of_stops listed
  rintro k member c first ⟨more, longer⟩
  have inside : c ∈ k.toList.drop 1 := by
    rw [← longer]
    cases spelled : m.toList with
    | nil =>
      rcases mark_length m listed with none | none | none <;> rw [spelled] at none <;> cases none
    | cons d ds => simp
  cases (stops c first).symm.trans (joins_of_mark member inside)

-- Marks that no longer one begins with.
def brackets : List String := ["(", ")", "[", "]", ",", ";", ":", "@", "\x7b", "\x7d"]

theorem stops_alone {m : String} (alone : ∀ k ∈ marks, m.toList.isPrefixOf k.toList = true → k = m) {rest : List Char} :
    ∀ k ∈ marks, ∀ c, rest.head? = some c → ¬ m.toList ++ [c] <+: k.toList := by
  intro k member c _ longer
  have same := alone k member (List.isPrefixOf_iff_prefix.mpr ((List.prefix_append _ _).trans longer))
  have long := longer.length_le
  rw [same, List.length_append, List.length_singleton] at long
  omega

theorem yields_bracket (m : String) (listed : m ∈ brackets) (rest : List Char) : Yields m.toList [.mark m] rest := by
  have all : ∀ m ∈ brackets, m ∈ marks ∧ m ≠ "." ∧ ∀ k ∈ marks, m.toList.isPrefixOf k.toList = true → k = m := by
    decide
  obtain ⟨mark, other, alone⟩ := all m listed
  exact yields_of_mark? mark (fun same => absurd same other) (mark?_of_stops mark (stops_alone alone))

theorem yields_point {rest : List Char} (stops : Cut Char.isDigit rest) : Yields ['.'] [.mark "."] rest := by
  have alone : ∀ k ∈ marks, ".".toList.isPrefixOf k.toList = true → k = "." := by decide
  exact yields_of_mark? (m := ".") (by decide) (fun _ => stops) (mark?_of_stops (by decide) (stops_alone alone))

theorem Cut.digit {rest : List Char} (stops : Cut inName rest) : Cut Char.isDigit rest := by
  intro c first
  have stop := stops c first
  simp only [inName, Char.isAlphanum, Bool.or_eq_false_iff] at stop
  exact stop.1.2

section Numbers

variable {whole fraction rest : List Char} (wholes : ∀ c ∈ whole, c.isDigit = true)

include wholes

theorem fixedPoint_pointed (fractions : ∀ c ∈ fraction, c.isDigit = true) (stops : Cut Char.isDigit rest) :
    fixedPoint (whole ++ '.' :: (fraction ++ rest)) =
      ((⟨Nat.ofDigitChars 10 (whole ++ fraction) 0, -fraction.length⟩, true), rest) := by
  have point : Cut Char.isDigit ('.' :: (fraction ++ rest)) := .cons rfl _
  obtain ⟨front, back⟩ := takeWhile_stops wholes point
  obtain ⟨inner, last⟩ := takeWhile_stops fractions stops
  unfold fixedPoint digits pastDigits
  rw [front, back]
  simp only [inner, last]

theorem fixedPoint_whole (stops : Cut Char.isDigit rest) (other : rest.head? ≠ some '.') :
    fixedPoint (whole ++ rest) = ((⟨Nat.ofDigitChars 10 whole 0, 0⟩, false), rest) := by
  obtain ⟨front, back⟩ := takeWhile_stops wholes stops
  unfold fixedPoint digits pastDigits
  rw [front, back]
  split
  · exact absurd rfl other
  · rfl

end Numbers

theorem toDigits_isDigit (n : Nat) : ∀ c ∈ Nat.toDigits 10 n, c.isDigit = true := fun _ member =>
  Nat.isDigit_of_mem_toDigits (by decide) (by decide) member

theorem natural?_digits (n : Nat) {rest : List Char} (stops : Cut Char.isDigit rest) :
    natural? (Nat.toDigits 10 n ++ rest) = some (n, rest) := by
  obtain ⟨front, back⟩ := takeWhile_stops (toDigits_isDigit n) stops
  unfold natural? digits pastDigits
  rw [front, back, if_neg Nat.toDigits_ne_nil, Nat.ofDigitChars_ten_toDigits]

theorem power?_toString (n : Int) {rest : List Char} (stops : Cut Char.isDigit rest) :
    power? ((toString n).toList ++ rest) = some (n, rest) := by
  cases n with
  | ofNat n =>
    have spelled : (toString (Int.ofNat n)).toList = Nat.toDigits 10 n := by
      change (toString n).toList = _
      rw [Nat.toString_eq_ofList_toDigits, String.toList_ofList]
    have read := natural?_digits n stops
    rw [spelled]
    have first : ∀ c cs, Nat.toDigits 10 n ++ rest = c :: cs → c.isDigit = true := by
      intro c cs same
      have head : (Nat.toDigits 10 n).head? = some c := by
        rw [← List.head?_append_of_ne_nil _ Nat.toDigits_ne_nil, same]
        rfl
      exact toDigits_isDigit n c (List.mem_of_head? head)
    unfold power?
    split
    · rename_i minus
      cases first _ _ minus
    · rename_i plus
      cases first _ _ plus
    · rw [read]
      rfl
  | negSucc n =>
    have spelled : (toString (Int.negSucc n)).toList = '-' :: Nat.toDigits 10 (n + 1) := by
      change ("-" ++ toString (n + 1)).toList = _
      rw [Nat.toString_eq_ofList_toDigits, String.toList_append, String.toList_ofList, String.toList_ofList]
      rfl
    rw [spelled, List.cons_append]
    change (natural? (Nat.toDigits 10 (n + 1) ++ rest)).map (fun p => (-(p.1 : Int), p.2)) = _
    rw [natural?_digits (n + 1) stops]
    rfl

theorem Cut.any {p : Char → Bool} {rest : List Char} (stops : Cut p rest) : rest.head?.any p = false := by
  cases rest with
  | nil => rfl
  | cons c rest => exact stops c rfl

theorem number?_pointed {cs rest : List Char} {d : Decimal} (read : fixedPoint cs = ((d, true), rest))
    (stops : Cut inName rest) : number? cs = some (d, rest) := by
  unfold number?
  simp only [read]
  split
  · cases stops 'e' rfl
  · cases stops 'E' rfl
  · simp only [if_true, Option.filter_some, stops.any, Bool.not_false]

theorem number?_scaled {cs more rest : List Char} {d : Decimal} {pointed : Bool} {n : Int}
    (read : fixedPoint cs = ((d, pointed), 'e' :: more)) (power : power? more = some (n, rest)) (stops : Cut inName rest) :
    number? cs = some (⟨d.digits, d.exponent + n⟩, rest) := by
  unfold number?
  simp only [read, withPower, power, Option.map_some, Option.filter_some, stops.any, Bool.not_false, if_true]

theorem startsName_of_isDigit {c : Char} (digit : c.isDigit = true) : startsName c = false := by
  delta startsName Char.isAlpha Char.isUpper Char.isLower
  simp only [Char.isDigit, Bool.and_eq_true, Bool.or_eq_false_iff, Bool.and_eq_false_iff, decide_eq_true_eq,
    decide_eq_false_iff_not, ge_iff_le, UInt32.le_iff_toNat_le] at digit ⊢
  have nine : '9'.val.toNat = 57 := rfl
  have upper : 'A'.val.toNat = 65 := rfl
  have lower : 'a'.val.toNat = 97 := rfl
  refine ⟨⟨by omega, by omega⟩, ?_⟩
  rintro rfl
  exact absurd digit.2 (by decide)

-- A numeral starts with its digits, and none of them makes it hexadecimal.
theorem yields_numeral {whole tail rest : List Char} {t : Token} (digits : ∀ c ∈ whole, c.isDigit = true)
    (some : whole ≠ []) (plain : (tail ++ rest).head? ≠ .some 'x')
    (read : numeral? (whole ++ (tail ++ rest)) = .some (t, rest)) : Yields (whole ++ tail) [t] rest := by
  cases whole with
  | nil => exact absurd rfl some
  | cons c whole =>
    have digit := digits c List.mem_cons_self
    rw [List.cons_append]
    apply Yields.token (shows_of digit (by decide))
    have word := startsName_of_isDigit digit
    have hexless : ((whole ++ tail) ++ rest).head? ≠ .some 'x' := by
      cases whole with
      | nil => exact plain
      | cons second whole =>
        intro same
        cases same
        cases digits 'x' (by simp)
    unfold token?
    rw [if_neg (by simp [word]), if_neg (fun both => hexless both.2), if_pos (.inl digit), List.append_assoc,
      ← List.cons_append, read]

theorem yields_number {whole tail rest : List Char} {d : Decimal} (digits : ∀ c ∈ whole, c.isDigit = true)
    (some : whole ≠ []) (plain : (tail ++ rest).head? ≠ .some 'x')
    (read : number? (whole ++ (tail ++ rest)) = .some (d, rest)) : Yields (whole ++ tail) [.number d] rest := by
  apply yields_numeral digits some plain
  rw [numeral?, read]
  rfl

theorem toList_toString (n : Nat) : (toString n).toList = Nat.toDigits 10 n := by
  rw [Nat.toString_eq_ofList_toDigits, String.toList_ofList]

theorem number?_whole {cs more : List Char} {d : Decimal} (read : fixedPoint cs = ((d, false), more))
    (other : more.head? ≠ some 'e' ∧ more.head? ≠ some 'E') : number? cs = none := by
  unfold number?
  simp only [read]
  split
  · exact absurd rfl other.1
  · exact absurd rfl other.2
  · rfl

def integerText (n : Nat) (unsigned : Bool) : String := if unsigned then toString n ++ "u" else toString n

theorem yields_integer (n : Nat) (unsigned : Bool) {rest : List Char} (stops : Cut inName rest)
    (point : unsigned = false → rest.head? ≠ some '.') :
    Yields (integerText n unsigned).toList [.integer n unsigned] rest := by
  obtain ⟨tail, text, cut, dot, letters, read⟩ : ∃ tail, (integerText n unsigned).toList = Nat.toDigits 10 n ++ tail ∧
      Cut Char.isDigit (tail ++ rest) ∧ (tail ++ rest).head? ≠ some '.' ∧
      (∀ c ∈ ['x', 'e', 'E'], (tail ++ rest).head? ≠ some c) ∧
      integer? (Nat.toDigits 10 n ++ (tail ++ rest)) = some ((n, unsigned), rest) := by
    cases unsigned with
    | false =>
      refine ⟨[], by rw [integerText, List.append_nil]; exact toList_toString n, stops.digit, point rfl, ?_, ?_⟩
      · intro c listed first
        simp only [List.mem_cons, List.not_mem_nil, or_false] at listed
        rcases listed with rfl | rfl | rfl <;> cases stops _ first
      · rw [integer?, List.nil_append, natural?_digits n stops.digit, Option.map_some]
        split
        · rename_i more suffixed
          dsimp only at suffixed
          rw [suffixed] at stops
          cases stops 'u' rfl
        · simp [stops.any]
    | true =>
      refine ⟨['u'], ?_, .cons rfl _, by simp, by simp, ?_⟩
      · rw [integerText, if_pos rfl, String.toList_append, toList_toString]
        rfl
      · have suffix : Cut Char.isDigit (['u'] ++ rest) := .cons rfl rest
        rw [integer?, natural?_digits n suffix, Option.map_some]
        simp [stops.any]
  rw [text]
  refine yields_numeral (toDigits_isDigit n) Nat.toDigits_ne_nil (letters 'x' (by decide)) ?_
  have none := number?_whole (fixedPoint_whole (toDigits_isDigit n) cut dot) ⟨letters 'e' (by decide), letters 'E' (by decide)⟩
  rw [numeral?, none, read]
  rfl

theorem pointed_parts (n places : Nat) : ∃ whole fraction, (Decimal.pointed n places).toList = whole ++ '.' :: fraction ∧
    (∀ c ∈ whole ++ fraction, c.isDigit = true) ∧ whole ≠ [] ∧ fraction.length = places ∧
      Nat.ofDigitChars 10 (whole ++ fraction) 0 = n := by
  obtain ⟨padded, spelled⟩ : ∃ padded, padded = Decimal.zeros (places + 1 - (toString n).length) ++ toString n := ⟨_, rfl⟩
  have chars : padded.toList = List.replicate (places + 1 - (toString n).length) '0' ++ Nat.toDigits 10 n := by
    rw [spelled, String.toList_append, toList_toString, Decimal.zeros, String.toList_ofList]
  have long : places < padded.toList.length := by
    rw [chars, List.length_append, List.length_replicate, ← toList_toString, String.length_toList]
    omega
  refine ⟨padded.toList.take (padded.toList.length - places), padded.toList.drop (padded.toList.length - places), ?_, ?_, ?_,
    ?_, ?_⟩
  · unfold Decimal.pointed
    simp only [← spelled, String.toList_append, String.toList_ofList, String.length_toList, List.append_assoc]
    rfl
  · intro c member
    rw [List.take_append_drop, chars, List.mem_append] at member
    rcases member with zero | digit
    · rw [List.eq_of_mem_replicate zero]
      rfl
    · exact toDigits_isDigit n c digit
  · intro none
    have length := congrArg List.length none
    rw [List.length_take, List.length_nil] at length
    omega
  · rw [List.length_drop]
    omega
  · rw [List.take_append_drop, chars, Nat.ofDigitChars_append, Nat.ofDigitChars_replicate_zero, Nat.mul_zero,
      Nat.ofDigitChars_ten_toDigits]

end GridKernel.Shader
