import GridKernel.Proofs.Function.Registrations
import GridKernel.Proofs.Shader.Programs

namespace GridKernel

-- Half the sum of the first elements of an array, cut to the unit interval.
def shareBody : Body :=
  ⟨[⟨"items", some .floatArray⟩, ⟨"count", some .int⟩], 2,
    [.declare 0 (.ofFloat 0.0),
      .loop 1 (.ofFloat 0.0) (.param 1) [.assign 0 (.binary .add (.var 0) (.index 0 [.var 1]))],
      .ret (.call "clamp01" [.binary .mul (.var 0) (.ofFloat 0.5)])]⟩

def shareTypes : List ValueType := [.floatArray, .int]
def shareGrid : Grid := ⟨[4, 2], by decide, by decide, by decide⟩

-- Two elements are summed, since the count is an integer.
def shareArgs : List Arg :=
  [.array ⟨[3], .f64 #[⟨0x3fe0000000000000⟩, ⟨0x3fd0000000000000⟩, ⟨0x3ff0000000000000⟩]⟩, .scalar 2.75]

def clampHelper : Definition :=
  ⟨"clamp01", [.float], .float, .kernel (Builtin.ofParams ["x"] Builtin.clamp01), 6, true⟩

theorem share_snapshot : (Registry.new false).snapshot shareBody.calls = ⟨[clampHelper], []⟩ := by
  have calls : shareBody.calls = ["clamp01"] := by decide +kernel
  have none : clampHelper.body.calls = [] := by decide +kernel
  rw [calls, Registry.snapshot, Registry.close_known (Registry.new false) _ "clamp01" [] clampHelper rfl rfl]
  rw [none, List.append_nil, Registry.close]
  rfl

end GridKernel
