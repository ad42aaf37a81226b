import GridKernel.Session.State

namespace GridKernel

def copyBody (rank : Nat) : Body :=
  ⟨[⟨"texture", some .floatArray⟩], 0, [.ret (.index 0 (Expr.threadIndex rank))]⟩

def Session.copy (s : Session) (b : Encoded) : Session × Except KernelError Tensor :=
  match s.codec.decode b b.shape with
  | .error e => (s, .error e)
  | .ok source =>
    if b.shape.any (0x100000000 ≤ ·) then (s, .error (.invalidArgument .axisTooLong))
    else
      match s.compile (copyBody b.shape.length) { dimensions := some b.shape.reverse } with
      | (s, .error e) => (s, .error e)
      | (s, .ok k) =>
        match s.run k [.array source] with
        | (s, _, .error e) => (s, .error e)
        | (s, _, .ok out) =>
          (s, Tensor.ofShape b.shape (.ofSingles b.type out.words))

end GridKernel
