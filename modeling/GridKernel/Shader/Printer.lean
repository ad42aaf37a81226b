import GridKernel.Number.Decimal
import GridKernel.Shader.Term
import GridKernel.Text

namespace GridKernel.Shader

def Arith.symbol : Arith → String
  | .add => "+"
  | .sub => "-"
  | .mul => "*"
  | .div => "/"
  | .rem => "%"

def Math.name : Math → String
  | .pow => "pow"
  | .min => "min"
  | .max => "max"
  | .atan2 => "atan2"

def Relation.symbol : Relation → String
  | .lt => "<"
  | .le => "<="
  | .gt => ">"
  | .ge => ">="
  | .eq => "=="
  | .ne => "!="

-- A number as a 32-bit literal. Infinities and NaN have none and are made from their bits.
def literalText (value : Float) : String :=
  let word := Single.ofFloat value
  if !word.isFinite then "kf_bits(0x" ++ Text.hex 8 word.bits.toNat ++ "u)"
  else if word.bits &&& 0x80000000 = 0 then word.literal
  else "(" ++ word.literal ++ ")"

def axisConstant : Axis → String
  | .x => "DIM_X"
  | .y => "DIM_Y"
  | .z => "DIM_Z"

def WordName.text : WordName → String
  | .invocation axis => "gid." ++ axis.name
  | .extent axis => axisConstant axis
  | .outputLength => "OUTPUT_LEN"
  | .rowStride => "ROW_STRIDE"
  | .element => "id"

-- An operator between its operands, given the operator that this is an operand of. Operands are
-- parenthesised, but for a product in a sum.
def operatorText (outer : Option Arith) (op : Arith) (left right : String) : String :=
  let inner := left ++ " " ++ op.symbol ++ " " ++ right
  if outer = none ∨ outer = some .add ∧ op = .mul then inner else "(" ++ inner ++ ")"

def WordTerm.text (outer : Option Arith) : WordTerm → String
  | .word name => name.text
  | .arith op left right => operatorText outer op (left.text (some op)) (right.text (some op))

def Conversion.text : Conversion → String
  | .floor => "floor"
  | .trunc => "trunc"
  | .word => "u32"
  | .number => "f32"
  | .bits => "bitcast<f32>"

def Code.text (outer : Option Arith) : Code → String
  | .number value => literalText value
  | .word value => toString value ++ "u"
  | .name text => text
  | .element buffer index => buffer ++ "[" ++ index.text none ++ "]"
  | .convert conversion input => conversion.text ++ "(" ++ input.text none ++ ")"
  | .arith op left right => operatorText outer op (left.text (some op)) (right.text (some op))

-- An operand of a product is parenthesised in every case, and so are those of a comparison.
def Check.text (c : Check) : String :=
  c.left.text (some .mul) ++ " " ++ c.relation.symbol ++ " " ++ c.right.text (some .mul)

mutual

def Term.text : Term → String
  | .literal value => literalText value
  | .param index => "p" ++ toString index
  | .var slot => "l" ++ toString slot
  | .thread axis => "thread." ++ axis.name
  | .extent axis => "f32(" ++ axisConstant axis ++ ")"
  | .load slot indices => "load_in" ++ toString slot ++ "(" ++ Text.joined ", " (texts indices) ++ ")"
  | .negate input => "(-" ++ input.text ++ ")"
  | .apply op input => op.name ++ "(" ++ input.text ++ ")"
  | .arith op left right => "(" ++ left.text ++ " " ++ op.symbol ++ " " ++ right.text ++ ")"
  | .math op left right => op.name ++ "(" ++ left.text ++ ", " ++ right.text ++ ")"
  | .select no yes test => "select(" ++ no.text ++ ", " ++ yes.text ++ ", " ++ test.text ++ ")"
  | .helper name args => "fn_" ++ name ++ "(" ++ Text.joined ", " ("thread" :: texts args) ++ ")"

def Test.text : Test → String
  | .compare relation left right => left.text ++ " " ++ relation.symbol ++ " " ++ right.text
  | .both left right => "(" ++ left.text ++ ") && (" ++ right.text ++ ")"
  | .either left right => "(" ++ left.text ++ ") || (" ++ right.text ++ ")"

def texts : List Term → List String
  | [] => []
  | t :: ts => t.text :: texts ts

end

def indent (depth : Nat) (line : String) : String :=
  String.ofList (List.replicate (4 * depth) ' ') ++ line

mutual

def Command.lines (depth : Nat) : Command → List String
  | .declare slot value => [indent depth ("var l" ++ toString slot ++ ": f32 = " ++ value.text ++ ";")]
  | .assign slot value => [indent depth ("l" ++ toString slot ++ " = " ++ value.text ++ ";")]
  | .loop counter start stop body =>
    let name := "l" ++ toString counter
    indent depth ("for (var " ++ name ++ ": f32 = " ++ start.text ++ "; " ++ name ++ " < " ++
        stop.text ++ "; " ++ name ++ " = " ++ name ++ " + 1.0) \x7b") ::
      (blockLines (depth + 1) body ++ [indent depth "\x7d"])
  | .branch test yes no =>
    let otherwise :=
      if no.isEmpty then []
      else indent depth "\x7d else \x7b" :: blockLines (depth + 1) no
    indent depth ("if (" ++ test.text ++ ") \x7b") ::
      (blockLines (depth + 1) yes ++ otherwise ++ [indent depth "\x7d"])
  | .ret value => [indent depth ("return " ++ value.text ++ ";")]

def blockLines (depth : Nat) : List Command → List String
  | [] => []
  | c :: cs => c.lines depth ++ blockLines depth cs

end

def headLine (name : String) (params : List (String × String)) : String :=
  "fn " ++ name ++ "(" ++ Text.joined ", " (params.map fun p => p.1 ++ ": " ++ p.2) ++ ") -> f32 \x7b"

def letLine (name value : String) : String := indent 1 ("let " ++ name ++ " = " ++ value ++ ";")

def returnLine (depth : Nat) (value : String) : String := indent depth ("return " ++ value ++ ";")

def checkLines (checks : List Check) : List String :=
  if checks.isEmpty then []
  else
    [indent 1 ("if (!(" ++ Text.joined " && " (checks.map Check.text) ++ ")) \x7b"),
      returnLine 2 (literalText 0.0), indent 1 "\x7d"]

def Function.lines (f : Function) : List String :=
  headLine f.name f.params ::
    (f.lets.map (fun l => letLine l.name (l.value.text none)) ++ checkLines f.checks ++
      [returnLine 1 (f.result.text none), "\x7d"])

end GridKernel.Shader
