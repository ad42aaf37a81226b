import GridKernel.Kernel.Body
import GridKernel.Shader.Lowering

namespace GridKernel.Shader

mutual

def lowerStmt (names : Names) : Stmt → Except CompileFault Command
  | .declare slot value => do
    let t ← lower names value
    .ok (.declare slot t)
  | .assign slot value => do
    let t ← lower names value
    .ok (.assign slot t)
  | .loop counter start stop body => do
    let first ← lower names start
    let bound ← lower names stop
    let commands ← lowerBlock names body
    .ok (.loop counter first bound commands)
  | .branch cond yes no => do
    let c ← lower names cond
    let y ← lowerBlock names yes
    let n ← lowerBlock names no
    .ok (.branch (nonzero c) y n)
  | .ret value => do
    let t ← lower names value
    .ok (.ret t)

def lowerBlock (names : Names) : List Stmt → Except CompileFault (List Command)
  | [] => .ok []
  | stmt :: rest => do
    let command ← lowerStmt names stmt
    let commands ← lowerBlock names rest
    .ok (command :: commands)

end

end GridKernel.Shader
