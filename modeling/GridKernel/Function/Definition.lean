import GridKernel.Kernel.Validity

namespace GridKernel

inductive FunctionBody where
  | kernel (body : Body)
  | native (arity : Nat) (apply : List Float → Float)

namespace FunctionBody

def arity : FunctionBody → Nat
  | .kernel body => body.params.length
  | .native n _ => n

def isNative : FunctionBody → Bool
  | .kernel _ => false
  | .native _ _ => true

def defaultTypes : FunctionBody → List ValueType
  | .kernel body => body.declaredTypes
  | .native n _ => List.replicate n .float

-- Names the body calls; a native one calls none that we could follow.
def calls : FunctionBody → List String
  | .kernel body => body.calls
  | .native _ _ => []

end FunctionBody

-- A helper with its types. The generation is the stamp of its registration.
structure Definition where
  name : String
  paramTypes : List ValueType
  returnType : ValueType
  body : FunctionBody
  generation : Nat := 0
  builtin : Bool := false

-- A letter or underscore, then letters, digits and underscores, all ASCII.
def isIdentifier (name : String) : Bool :=
  match name.toList with
  | [] => false
  | first :: rest => (first.isAlpha || first = '_') && rest.all fun c => c.isAlphanum || c = '_'

namespace Definition

-- A definition from what was supplied. Missing types come from the body, and a missing
-- result type is a number.
def make (name : String) (body : FunctionBody) (paramTypes : Option (List ValueType))
    (returnType : Option ValueType) : Definition where
  name := name
  paramTypes := paramTypes.getD body.defaultTypes
  returnType := returnType.getD .float
  body := body

def validate (d : Definition) : Except ArgumentFault Unit :=
  if !isIdentifier d.name then .error (.badName d.name)
  else if d.returnType.isArray then .error (.arrayReturn d.name)
  else if d.paramTypes.length ≠ d.body.arity then
    .error (.definitionTypes d.name d.paramTypes.length d.body.arity)
  else
    match d.body with
    | .kernel body => body.validate d.paramTypes
    | .native _ _ =>
      if d.paramTypes.any ValueType.isArray then .error (.nativeArray d.name) else .ok ()

def sameTypes (a b : Definition) : Bool :=
  a.paramTypes = b.paramTypes && a.returnType = b.returnType

def typeText (d : Definition) : String :=
  "(" ++ Text.joined ", " (d.paramTypes.map ValueType.name) ++ ") -> " ++ d.returnType.name

end Definition
end GridKernel
