import GridKernel.Proofs.Eval.Calls
import GridKernel.Proofs.Eval.Depth
import GridKernel.Proofs.Eval.Safety
import GridKernel.Proofs.Shader.Acceptance

namespace GridKernel

def Fitted (lookup : String → Option Definition) (nodes : List Expr) : Prop :=
  ∀ name args, .call name args ∈ nodes → ∃ callee, lookup name = some callee ∧ callee.paramTypes.length = args.length

theorem Fitted.blames {env : Env} {nodes : List Expr} {failure : EvalError} (fitted : Fitted env.lookup nodes)
    (blames : env.Blames nodes failure) :
    failure.IsOwn ∨ ∃ name args callee values, .call name args ∈ nodes ∧ env.lookup name = some callee ∧
      env.enter callee values = .error failure := by
  cases blames with
  | own own => exact .inl own
  | unknown call absent =>
    obtain ⟨callee, known, _⟩ := fitted _ _ call
    cases absent.symm.trans known
  | arity call known differ =>
    obtain ⟨callee, here, fits⟩ := fitted _ _ call
    cases here.symm.trans known
    exact absurd fits differ
  | callee call known failed => exact .inr ⟨_, _, _, _, call, known, failed⟩

namespace Snapshot

variable {s : Snapshot}

theorem names_of_get? {name : String} {d : Definition} (known : s.get? name = some d) : name ∈ s.names := by
  have named : d.name = name := by simpa using List.find?_some known
  exact named ▸ List.mem_map_of_mem (List.mem_of_find?_eq_some known)

theorem calls_of_node {caller name : String} {d : Definition} {own : Body} {args : List Expr} (known : s.get? caller = some d)
    (kernel : d.body = .kernel own) (call : .call name args ∈ own.nodes) : s.Calls caller name := by
  unfold Calls callsOf
  rw [known]
  change name ∈ d.body.calls
  rw [kernel]
  exact Body.mem_calls.mpr ⟨args, call⟩

def Consistent (s : Snapshot) : Prop :=
  ∀ name d own, s.get? name = some d → d.body = .kernel own → Fitted s.get? own.nodes

-- A helper that is out of depth has called on through as many others as there was depth.
theorem enter_fails (consistent : s.Consistent) {context : Context} {depth : Nat} {name : String} {d : Definition}
    {values : List Value} {failure : EvalError} (known : s.get? name = some d)
    (failed : enter s.get? context depth d values = .error failure) :
    failure.IsOwn ∨ failure = .stackOverflow ∧
      ∃ chain, (name :: chain).IsChain s.Calls ∧ name :: chain ⊆ s.names ∧ chain.length = depth := by
  induction depth generalizing name d values with
  | zero =>
    cases failed
    refine .inr ⟨rfl, [], .singleton name, ?_, rfl⟩
    simpa using names_of_get? known
  | succ depth ih =>
    rw [enter] at failed
    have ran := map_eq_error failed
    cases kernel : d.body with
    | native arity apply =>
      rw [kernel] at ran
      cases ran
    | kernel own =>
      rw [kernel] at ran
      rcases (consistent name d own known kernel).blames (Env.runFrom_blames ran) with own | ⟨callee, args, e, passed, call, here, deeper⟩
      · exact .inl own
      · refine (ih here deeper).imp_right ?_
        rintro ⟨rfl, chain, calls, helpers, long⟩
        refine ⟨rfl, callee :: chain, .cons_cons (calls_of_node known kernel call) calls, ?_, by simp [long]⟩
        exact List.cons_subset.mpr ⟨names_of_get? known, helpers⟩

theorem evaluate_fails (consistent : s.Consistent) {context : Context} {body : Body} {values : List Value}
    {failure : EvalError} (fitted : Fitted s.get? body.nodes)
    (failed : evaluate s.get? context body values = .error failure) :
    failure.IsOwn ∨ failure = .stackOverflow ∧
      ∃ name chain, name ∈ body.calls ∧ (name :: chain).IsChain s.Calls ∧ name :: chain ⊆ s.names ∧
        chain.length = maxCallDepth := by
  rcases fitted.blames (Env.runFrom_blames failed) with own | ⟨name, args, callee, passed, call, known, deeper⟩
  · exact .inl own
  · refine (enter_fails consistent known deeper).imp_right ?_
    rintro ⟨rfl, chain, calls, helpers, long⟩
    exact ⟨rfl, name, chain, Body.mem_calls.mpr ⟨args, call⟩, calls, helpers, long⟩

theorem Acyclic.nodup (acyclic : s.Acyclic) {chain : List String} (calls : chain.IsChain s.Calls) : chain.Nodup := by
  have reached : chain.IsChain (Relation.TransGen s.Calls) := calls.imp fun _ _ step => .single step
  refine (List.isChain_iff_pairwise.mp reached).imp ?_
  rintro first last path rfl
  exact acyclic first path

end Snapshot

namespace Registry.Expressible

variable {r : Registry} {body : Body} {types : List ValueType} (expressible : r.Expressible body types)

include expressible

theorem fitted : Fitted (r.snapshot body.calls).get? body.nodes :=
  (fits_iff (fun _ => .root) expressible.known).mpr expressible.fits

theorem consistent : (r.snapshot body.calls).Consistent := by
  intro name d own found kernel
  obtain ⟨known, reached⟩ := snapshot_get?.mp found
  refine (fits_iff ?_ expressible.known).mpr (expressible.helpersFit name d own reached known kernel)
  intro callee called
  exact reached.step ⟨d, known, by rwa [kernel]⟩

-- Helpers take numbers and are given numbers.
theorem no_misfit {code : Body} {own : List ValueType} {cause : Mismatch}
    (runs : Runs (r.snapshot body.calls) body types code own) :
    ¬ MisfitCall (r.snapshot body.calls).get? own code.nodes cause := by
  rintro ⟨call, found, param, passed, misfit⟩
  obtain ⟨known, reached⟩ := snapshot_get?.mp found
  cases misfit with
  | other => exact expressible.numbers _ _ reached known (List.mem_of_getElem? param)
  | whole number array =>
    cases runs with
    | kernel => exact expressible.scalars _ _ call _ array (List.mem_of_getElem? passed)
    | helper member kernel =>
      obtain ⟨here, caller⟩ := (r.mem_snapshot_functions body.calls _).mp member
      exact expressible.numbers _ _ caller here (List.mem_of_getElem? array)

-- Out of depth, the calls have come through more helpers than the limit, none of them twice.
theorem overflow {context : Context} {values : List Value}
    (full : evaluate (r.snapshot body.calls).get? context body values = .error .stackOverflow) :
    ∃ first chain, first ∈ body.calls ∧ (first :: chain).IsChain r.Calls ∧ (first :: chain).Nodup ∧
      first :: chain ⊆ (r.snapshot body.calls).names ∧ maxCallDepth < (first :: chain).length := by
  rcases Snapshot.evaluate_fails expressible.consistent expressible.fitted full with own | failed
  · cases own
  · obtain ⟨_, first, chain, root, calls, helpers, long⟩ := failed
    have distinct : (first :: chain).Nodup := (snapshot_acyclic.mpr expressible.acyclic).nodup calls
    refine ⟨first, chain, root, calls.imp fun _ _ step => (snapshot_calls.mp step).2, distinct, helpers, ?_⟩
    rw [List.length_cons, long]
    exact Nat.lt_succ_self _

theorem no_overflow {context : Context} {values : List Value}
    (few : (r.snapshot body.calls).functions.length ≤ maxCallDepth) :
    evaluate (r.snapshot body.calls).get? context body values ≠ .error .stackOverflow := by
  intro full
  obtain ⟨first, chain, _, _, distinct, helpers, long⟩ := expressible.overflow full
  have short := (List.subperm_of_subset distinct helpers).length_le
  rw [Snapshot.names, List.length_map] at short
  omega

-- What checking leaves open is settled by the shader, up to the two limits and the reads whose address is lost.
theorem outcomes (valid : r.Valid) (checked : body.validate types = .ok ()) {values : List Value} {Lost : Prop}
    (typed : TypedArgs Lost types values) (context : Context) :
    (∃ v, evaluate (r.snapshot body.calls).get? context body values = .ok v) ∨
      evaluate (r.snapshot body.calls).get? context body values = .error .loopLimit ∨
      evaluate (r.snapshot body.calls).get? context body values = .error .stackOverflow ∨
      Lost ∧ evaluate (r.snapshot body.calls).get? context body values = .error .overflow := by
  have safe := evaluate_safe valid checked typed context
  cases ended : evaluate (r.snapshot body.calls).get? context body values with
  | ok v => exact .inl ⟨v, rfl⟩
  | error failure =>
    rw [ended] at safe
    rcases Snapshot.evaluate_fails expressible.consistent expressible.fitted ended with own | ⟨rfl, _⟩
    · cases failure with
      | loopLimit => exact .inr (.inl rfl)
      | overflow => exact .inr (.inr (.inr ⟨safe, rfl⟩))
      | typeMismatch cause =>
        obtain ⟨code, kinds, runs, misfit⟩ := safe
        exact absurd misfit (expressible.no_misfit runs)
      | missingReturn | badLocal => cases safe
      | unknownFunction | arityMismatch | stackOverflow => cases own
    · exact .inr (.inr (.inl rfl))

end Registry.Expressible

-- Some array has no elements, but layers with more than a size can count.
def Arg.Uncounted (args : List Arg) : Prop := ∃ t, .array t ∈ args ∧ t.size = 0 ∧ ¬ (View.ofTensor t).Layered

theorem Value.bindAll_counted {types : List ValueType} {args : List Arg} {values : List Value}
    (shaped : ∀ t, .array t ∈ args → t.Shaped) (bound : Value.bindAll types args = .ok values) :
    TypedArgs (Arg.Uncounted args) types values := by
  refine Value.bindAll_typed ?_ bound
  intro t member counted
  refine (shaped t member).load_layered ?_
  by_contra deep
  rcases Nat.eq_zero_or_pos t.size with empty | filled
  · exact counted ⟨t, member, empty, deep⟩
  · exact deep ((shaped t member).layered filled)

-- A kernel that has a shader, bound to arguments, evaluates to a value or runs out of iterations or depth, or it
-- reads an empty array whose layers cannot be counted. It runs out of depth only at the end of a chain of more
-- distinct helpers than the limit. The counter of nested calls is back after every evaluation whatsoever, and calls
-- that it stops end as they do here.
theorem kernels_with_a_shader_cannot_go_wrong (registry : Registry) (reached : registry.Reached) (body : Body)
    (types : List ValueType) (checked : body.validate types = .ok ()) (grid : Grid) (source : Shader.Source)
    (made : Shader.synthesize ⟨body, types, grid, registry.snapshot body.calls⟩ = .ok source) (args : List Arg)
    (shaped : ∀ t, .array t ∈ args → t.Shaped) (values : List Value) (bound : Value.bindAll types args = .ok values)
    (context : Context) :
    ((∃ v, evaluate (registry.snapshot body.calls).get? context body values = .ok v) ∨
      evaluate (registry.snapshot body.calls).get? context body values = .error .loopLimit ∨
      evaluate (registry.snapshot body.calls).get? context body values = .error .stackOverflow ∨
      Arg.Uncounted args ∧ evaluate (registry.snapshot body.calls).get? context body values = .error .overflow) ∧
    (evaluate (registry.snapshot body.calls).get? context body values = .error .stackOverflow →
      ∃ first chain, first ∈ body.calls ∧ (first :: chain).IsChain registry.Calls ∧ (first :: chain).Nodup ∧
        first :: chain ⊆ (registry.snapshot body.calls).names ∧ maxCallDepth < (first :: chain).length) ∧
    ((registry.snapshot body.calls).functions.length ≤ maxCallDepth →
      evaluate (registry.snapshot body.calls).get? context body values ≠ .error .stackOverflow) ∧
    ∀ (lookup : String → Option Definition) (spot : Context) (code : Body) (passed : List Value),
      (∀ start, (Counted.evaluate lookup spot code passed start).2 = start) ∧
        (Counted.evaluate lookup spot code passed 0).1 = evaluate lookup spot code passed := by
  have valid := Registry.reached_valid reached
  have expressible : registry.Expressible body types := by
    apply (Shader.build_iff_expressible valid checked grid).mp
    obtain ⟨program, built, _⟩ := bind_eq_ok made
    exact ⟨program, built⟩
  refine ⟨?_, ?_, ?_, ?_⟩
  · exact expressible.outcomes valid checked (Value.bindAll_counted shaped bound) context
  · exact expressible.overflow
  · exact expressible.no_overflow
  · intro lookup spot code passed
    exact ⟨Counted.evaluate_restores lookup spot code passed, Counted.evaluate_eq lookup spot code passed⟩

-- Two helpers that share a third leave nothing but a value or too many iterations.
theorem sharing_cannot_go_wrong :
    tangled.Reached ∧ (tangled.snapshot sharingBody.calls).functions.length = 3 ∧
      ((∃ v, evaluate (tangled.snapshot sharingBody.calls).get? ⟨⟨3, 0, 0⟩, ⟨5, 1, 1⟩⟩ sharingBody [] = .ok v) ∨
        evaluate (tangled.snapshot sharingBody.calls).get? ⟨⟨3, 0, 0⟩, ⟨5, 1, 1⟩⟩ sharingBody [] = .error .loopLimit) := by
  have made : ∃ source,
      Shader.synthesize ⟨sharingBody, [], tangledGrid, tangled.snapshot sharingBody.calls⟩ = .ok source := by
    rw [sharing_snapshot]
    exact ⟨_, rfl⟩
  have three : (tangled.snapshot sharingBody.calls).functions.length = 3 := by
    rw [sharing_snapshot]
    rfl
  obtain ⟨source, made⟩ := made
  obtain ⟨ends, _, enough, _⟩ := kernels_with_a_shader_cannot_go_wrong tangled tangled_reached sharingBody []
    (by decide +kernel) tangledGrid source made [] (by simp) [] rfl ⟨⟨3, 0, 0⟩, ⟨5, 1, 1⟩⟩
  refine ⟨tangled_reached, three, ?_⟩
  rcases ends with value | endless | deep | ⟨⟨t, none, _⟩, _⟩
  · exact .inl value
  · exact .inr endless
  · refine absurd deep (enough ?_)
    rw [three]
    decide
  · cases none

-- No layer, and each would have `2 ^ 65` elements.
def flatLayers : Tensor := ⟨[0, 9223372036854775808, 4], .f32 #[]⟩

def farRead : Body := ⟨[⟨"a", some .floatArray⟩], 0, [.ret (.index 0 [.const ⟨0x43d0000000000000⟩, .const ⟨0⟩])]⟩

-- Two indices are within the layer, but the address of their element is past the range.
theorem far_read_goes_wrong :
    flatLayers.Shaped ∧ farRead.validate [.floatArray] = .ok () ∧
      (∃ source, Shader.synthesize ⟨farRead, [.floatArray], tangledGrid,
        (Registry.new false).snapshot farRead.calls⟩ = .ok source) ∧
      ∃ values, Value.bindAll [.floatArray] [.array flatLayers] = .ok values ∧
        evaluate ((Registry.new false).snapshot farRead.calls).get? ⟨⟨0, 0, 0⟩, ⟨5, 1, 1⟩⟩ farRead values =
          .error .overflow := by
  have calls : farRead.calls = [] := by decide +kernel
  have alone : (Registry.new false).snapshot farRead.calls = ⟨[], []⟩ := by
    rw [calls, Registry.snapshot, Registry.close]
  rw [alone]
  exact ⟨rfl, by decide +kernel, ⟨_, rfl⟩, _, rfl, rfl⟩

end GridKernel
