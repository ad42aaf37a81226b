import GridKernel.Function.Definition

namespace GridKernel.Builtin

def ofParams (names : List String) (value : Expr) : Body :=
  ⟨names.map fun name => ⟨name, some .float⟩, 0, [.ret value]⟩

def x : Expr := .param 0
def y : Expr := .param 1

-- The natural logarithm of ten.
def lnTen : Float := 2.302585092994046

def round : Expr := .unary .floor (.binary .add x (.ofFloat 0.5))
def log10 : Expr := .binary .div (.unary .log x) (.ofFloat lnTen)
def log1p : Expr := .unary .log (.binary .add (.ofFloat 1.0) x)
def expm1 : Expr := .binary .sub (.unary .exp x) (.ofFloat 1.0)

def cbrt : Expr :=
  .binary .mul (.unary .sign x) (.binary .pow (.unary .abs x) (.ofFloat (1.0 / 3.0)))

def clamp01 : Expr := .binary .min (.binary .max x (.ofFloat 0.0)) (.ofFloat 1.0)
def hypot : Expr := .unary .sqrt (.binary .add (.binary .mul x x) (.binary .mul y y))

def all : List (String × Body) :=
  [("round", ofParams ["x"] round),
    ("log10", ofParams ["x"] log10),
    ("log1p", ofParams ["x"] log1p),
    ("expm1", ofParams ["x"] expm1),
    ("cbrt", ofParams ["x"] cbrt),
    ("clamp01", ofParams ["x"] clamp01),
    ("hypot", ofParams ["x", "y"] hypot)]

end GridKernel.Builtin
