import GridKernel.Text

namespace GridKernel.Toml

-- Characters a comment or a string on one line may hold: no control characters but the tab.
def isPlain (c : Char) : Bool := c = '\t' || (0x20 ≤ c.toNat && c.toNat ≠ 0x7f)

def skipBlanks (cs : List Char) : List Char := cs.dropWhile fun c => c = ' ' || c = '\t'

def newline? : List Char → Option (List Char)
  | '\n' :: rest => some rest
  | '\r' :: '\n' :: rest => some rest
  | _ => none

def skipComment : List Char → List Char
  | '#' :: rest => rest.dropWhile isPlain
  | cs => cs

-- Blanks, comments and line ends. The fuel is the length of the text.
def skipLines : Nat → List Char → List Char
  | 0, cs => cs
  | fuel + 1, cs =>
    match newline? (skipComment (skipBlanks cs)) with
    | some rest => skipLines fuel rest
    | none => skipBlanks cs

def digit? (base : Nat) (c : Char) : Option Nat :=
  match Text.hexDigit? c with
  | some d => if d < base then some d else none
  | none => none

-- Digits after the first one; an underscore stands between two digits.
def moreDigits (base : Nat) : Nat → List Char → Option Nat
  | value, [] => some value
  | value, '_' :: c :: rest =>
    match digit? base c with
    | some d => moreDigits base (value * base + d) rest
    | none => none
  | value, c :: rest =>
    match digit? base c with
    | some d => moreDigits base (value * base + d) rest
    | none => none

def digits (base : Nat) : List Char → Option Nat
  | [] => none
  | c :: rest =>
    match digit? base c with
    | some d => moreDigits base d rest
    | none => none

-- A leading zero stands alone.
def decimalDigits : List Char → Option Nat
  | ['0'] => some 0
  | '0' :: _ => none
  | cs => digits 10 cs

def integer : List Char → Option Int
  | '0' :: 'x' :: rest => (digits 16 rest).map Int.ofNat
  | '0' :: 'o' :: rest => (digits 8 rest).map Int.ofNat
  | '0' :: 'b' :: rest => (digits 2 rest).map Int.ofNat
  | '+' :: rest => (decimalDigits rest).map Int.ofNat
  | '-' :: rest => (decimalDigits rest).map fun n => -(n : Int)
  | cs => (decimalDigits cs).map Int.ofNat

-- A scalar runs up to the next blank, line end, comment or separator.
def isScalarChar (c : Char) : Bool :=
  c.isAlphanum || c = '_' || c = '+' || c = '-' || c = '.' || c = ':'

def unicodeEscape (count : Nat) (cs : List Char) : Option (Char × List Char) := do
  if (cs.take count).length < count then none
  else
    let code ← Text.hexValue? (cs.take count)
    if code < 0xd800 ∨ (0xdfff < code ∧ code < 0x110000) then some (Char.ofNat code, cs.drop count)
    else none

def escape? : List Char → Option (Char × List Char)
  | 'b' :: rest => some (Char.ofNat 8, rest)
  | 't' :: rest => some ('\t', rest)
  | 'n' :: rest => some ('\n', rest)
  | 'f' :: rest => some (Char.ofNat 12, rest)
  | 'r' :: rest => some ('\r', rest)
  | '"' :: rest => some ('"', rest)
  | '\\' :: rest => some ('\\', rest)
  | 'u' :: rest => unicodeEscape 4 rest
  | 'U' :: rest => unicodeEscape 8 rest
  | _ => none

def basicString : Nat → List Char → List Char → Option (List Char × List Char)
  | 0, _, _ => none
  | _ + 1, _, [] => none
  | _ + 1, acc, '"' :: rest => some (acc.reverse, rest)
  | fuel + 1, acc, '\\' :: rest =>
    match escape? rest with
    | some (c, rest) => basicString fuel (c :: acc) rest
    | none => none
  | fuel + 1, acc, c :: rest => if isPlain c then basicString fuel (c :: acc) rest else none

def literalString : List Char → List Char → Option (List Char × List Char)
  | _, [] => none
  | acc, '\'' :: rest => some (acc.reverse, rest)
  | acc, c :: rest => if isPlain c then literalString (c :: acc) rest else none

-- Three quotes close a string of many lines; up to two more in front of them belong to its text.
def closing? (quote : Char) (cs : List Char) : Option (List Char × List Char) :=
  let run := (cs.takeWhile (· = quote)).length
  let inside := min (run - 3) 2
  if 3 ≤ run then some (List.replicate inside quote, cs.drop (inside + 3)) else none

-- Blanks and line ends. A carriage return is one only in front of a line feed.
def skipSpace : List Char → List Char
  | ' ' :: rest => skipSpace rest
  | '\t' :: rest => skipSpace rest
  | '\n' :: rest => skipSpace rest
  | '\r' :: '\n' :: rest => skipSpace rest
  | cs => cs

-- A backslash at the end of a line drops the line end and all blanks and line ends after it.
def lineJoin? (cs : List Char) : Option (List Char) := (newline? (skipBlanks cs)).map skipSpace

def longString (quote : Char) : Nat → List Char → List Char → Option (List Char × List Char)
  | 0, _, _ => none
  | fuel + 1, acc, cs =>
    match closing? quote cs with
    | some (text, rest) => some ((text ++ acc).reverse, rest)
    | none =>
      match newline? cs with
      | some rest => longString quote fuel ('\n' :: acc) rest
      | none =>
        match cs with
        | [] => none
        | c :: rest =>
          if c = '\\' ∧ quote = '"' then
            match lineJoin? rest with
            | some rest => longString quote fuel acc rest
            | none =>
              match escape? rest with
              | some (e, rest) => longString quote fuel (e :: acc) rest
              | none => none
          else if isPlain c then longString quote fuel (c :: acc) rest
          else none

-- A line end right after the opening quotes is not part of the text.
def longBody (quote : Char) (cs : List Char) : Option (List Char × List Char) :=
  longString quote (cs.length + 1) [] ((newline? cs).getD cs)

def string : List Char → Option (List Char × List Char)
  | '"' :: '"' :: '"' :: rest => longBody '"' rest
  | '\'' :: '\'' :: '\'' :: rest => longBody '\'' rest
  | '"' :: rest => basicString (rest.length + 1) [] rest
  | '\'' :: rest => literalString [] rest
  | _ => none

def integerItems : Nat → List Int → List Char → Option (List Int × List Char)
  | 0, _, _ => none
  | fuel + 1, acc, cs =>
    match skipLines cs.length cs with
    | ']' :: rest => some (acc.reverse, rest)
    | item =>
      match integer (item.takeWhile isScalarChar) with
      | none => none
      | some value =>
        let after := item.dropWhile isScalarChar
        match skipLines after.length after with
        | ',' :: rest => integerItems fuel (value :: acc) rest
        | ']' :: rest => some ((value :: acc).reverse, rest)
        | _ => none

def integerArray : List Char → Option (List Int × List Char)
  | '[' :: rest => integerItems (rest.length + 1) [] rest
  | _ => none

def isBareKeyChar (c : Char) : Bool := c.isAlphanum || c = '_' || c = '-'

def key : List Char → Option (List Char × List Char)
  | '"' :: rest => basicString (rest.length + 1) [] rest
  | '\'' :: rest => literalString [] rest
  | cs =>
    match cs.takeWhile isBareKeyChar with
    | [] => none
    | word => some (word, cs.dropWhile isBareKeyChar)

end GridKernel.Toml
