import GridKernel.Proofs.Function.Stamps
import GridKernel.Proofs.Outcome
import Mathlib.Data.List.Induction
import Mathlib.Tactic.IntervalCases

namespace GridKernel

theorem Definition.validate_iff (d : Definition) : d.validate = .ok () ↔
    isIdentifier d.name = true ∧ d.returnType.isArray = false ∧ d.paramTypes.length = d.body.arity ∧
      (∀ body, d.body = .kernel body → body.validate d.paramTypes = .ok ()) ∧
      (d.body.isNative = true → ∀ type ∈ d.paramTypes, type.isArray = false) := by
  unfold Definition.validate
  by_cases named : isIdentifier d.name = true
  · by_cases scalar : d.returnType.isArray = true
    · simp [named, scalar]
    · by_cases counted : d.paramTypes.length = d.body.arity
      · cases body : d.body with
        | kernel inner => simp_all [FunctionBody.isNative]
        | native arity apply => simp_all [FunctionBody.isNative]
      · simp [named, scalar, counted]
  · simp [named]

namespace Registry

-- What a registration asks for beyond the check: a built-in stays, and so do the types of a name in a
-- strict registry.
theorem register_allowed {r : Registry} {d : Definition} {next : Registry} {how : Registration}
    (accepted : r.register d = (next, .ok how)) {existing : Definition} (present : r.get? d.name = some existing) :
    existing.builtin = false ∧ (r.strict = true → existing.paramTypes = d.paramTypes ∧ existing.returnType = d.returnType) := by
  have checked := (register_parts accepted).1
  unfold register at accepted
  rw [checked, present] at accepted
  dsimp only at accepted
  split at accepted
  · cases accepted
  · rename_i free
    split at accepted
    · cases accepted
    · rename_i agrees
      refine ⟨by simpa using free, fun strict => ?_⟩
      simpa [strict, Definition.sameTypes] using agrees

inductive Call where
  | register (d : Definition)
  | add (name : String) (body : FunctionBody) (paramTypes : Option (List ValueType)) (returnType : Option ValueType)

def Call.definition : Call → Definition
  | .register d => d
  | .add name body paramTypes returnType => .make name body paramTypes returnType

def perform (r : Registry) (call : Call) : Registry × Except KernelError Registration := r.register call.definition

def afterCalls (strict : Bool) (calls : List Call) : Registry := calls.foldl (fun r call => (r.perform call).1) (new strict)

theorem afterCalls_append (strict : Bool) (calls more : List Call) :
    afterCalls strict (calls ++ more) = more.foldl (fun r call => (r.perform call).1) (afterCalls strict calls) := by
  rw [afterCalls, List.foldl_append, afterCalls]

theorem perform_parts (r : Registry) (call : Call) :
    (∃ e, r.perform call = (r, .error e)) ∨
      ∃ how, r.perform call = (r.store call.definition, .ok how) := by
  rcases r.register_cases call.definition with refused | ⟨how, stored, _⟩
  · exact .inl refused
  · exact .inr ⟨how, stored⟩

def builtinAt (place : Nat) (name : String) (body : Body) : Definition :=
  { Definition.make name (.kernel body) none none with generation := place + 1, builtin := true }

structure Sane (strict : Bool) (r : Registry) : Prop where
  valid : r.Valid
  positive : ∀ d ∈ r.functions, 0 < d.generation
  distinct : (r.functions.map (·.generation)).Nodup
  next : 0 < r.nextGeneration
  strict : r.strict = strict
  builtins : ∀ (place : Nat) name body, Builtin.all[place]? = some (name, body) →
    r.get? name = some (builtinAt place name body)

theorem store_positive {r : Registry} (next : 0 < r.nextGeneration) (positive : ∀ d ∈ r.functions, 0 < d.generation)
    (d : Definition) : ∀ e ∈ (r.store d).functions, 0 < e.generation := by
  intro e member
  rcases mem_store r d e member with rfl | old
  · exact next
  · exact positive e old

-- The new stamp is above all others, so it is none of them.
theorem store_distinct {r : Registry} (valid : r.Valid) (distinct : (r.functions.map (·.generation)).Nodup)
    (d : Definition) : ((r.store d).functions.map (·.generation)).Nodup := by
  simp only [store, List.map_cons, List.nodup_cons, List.mem_map, List.mem_filter]
  refine ⟨?_, (List.Sublist.map _ List.filter_sublist).nodup distinct⟩
  rintro ⟨e, ⟨old, _⟩, same⟩
  exact Nat.ne_of_lt (valid.stamped e old) same

theorem new_sane (strict : Bool) : (new strict).Sane strict := by
  have positive : (new strict).functions.all (fun d => decide (0 < d.generation)) = true := rfl
  refine ⟨new_valid strict, ?_, ?_, Nat.succ_pos 7, rfl, ?_⟩
  · intro d member
    simpa using List.all_eq_true.mp positive d member
  · change [7, 6, 5, 4, 3, 2, 1].Nodup
    decide
  · intro place name body there
    have bound := (List.getElem?_eq_some_iff.mp there).1
    change place < 7 at bound
    interval_cases place <;> cases there <;> rfl

theorem perform_sane {strict : Bool} {r : Registry} (sane : r.Sane strict) (call : Call) : (r.perform call).1.Sane strict := by
  rcases r.perform_parts call with ⟨e, refused⟩ | ⟨how, done⟩
  · rw [refused]
    exact sane
  · rw [done]
    have checked := (register_parts done).1
    refine ⟨store_valid _ _ sane.valid checked, store_positive sane.next sane.positive _,
      store_distinct sane.valid sane.distinct _, Nat.succ_pos _, sane.strict, ?_⟩
    intro place name body there
    -- A built-in under the name would have been refused.
    have other : name ≠ call.definition.name := by
      rintro rfl
      cases (register_allowed done (sane.builtins place _ body there)).1
    rw [r.get?_store_other _ other]
    exact sane.builtins place name body there

theorem afterCalls_sane (strict : Bool) (calls : List Call) : (afterCalls strict calls).Sane strict := by
  induction calls using List.reverseRecOn with
  | nil => exact new_sane strict
  | append_singleton calls call ih =>
    rw [afterCalls_append]
    exact perform_sane ih call

theorem perform_nextGeneration (r : Registry) (call : Call) : r.nextGeneration ≤ (r.perform call).1.nextGeneration := by
  rcases r.perform_parts call with ⟨e, refused⟩ | ⟨how, done⟩
  · exact Nat.le_of_eq (by rw [refused])
  · rw [done]
    exact Nat.le_succ _

theorem afterCalls_nextGeneration (strict : Bool) {earlier calls : List Call} (before : earlier <+: calls) :
    (afterCalls strict earlier).nextGeneration ≤ (afterCalls strict calls).nextGeneration := by
  obtain ⟨more, rfl⟩ := before
  induction more using List.reverseRecOn with
  | nil => rw [List.append_nil]
  | append_singleton more call ih =>
    rw [← List.append_assoc, afterCalls_append]
    exact Nat.le_trans ih (perform_nextGeneration _ call)

theorem perform_types {r : Registry} (strict : r.strict = true) {name : String} {d : Definition}
    (found : r.get? name = some d) (call : Call) :
    ∃ e, (r.perform call).1.get? name = some e ∧ e.paramTypes = d.paramTypes ∧ e.returnType = d.returnType := by
  rcases r.perform_parts call with ⟨_, refused⟩ | ⟨how, done⟩
  · rw [refused]
    exact ⟨d, found, rfl, rfl⟩
  · rw [done]
    by_cases same : name = call.definition.name
    · subst same
      obtain ⟨params, result⟩ := (register_allowed done found).2 strict
      exact ⟨_, r.get?_store_self _, params.symm, result.symm⟩
    · exact ⟨d, (r.get?_store_other _ same).trans found, rfl, rfl⟩

theorem afterCalls_types {calls : List Call} {name : String} {d : Definition}
    (found : (afterCalls true calls).get? name = some d) (more : List Call) :
    ∃ e, (afterCalls true (calls ++ more)).get? name = some e ∧ e.paramTypes = d.paramTypes ∧
      e.returnType = d.returnType := by
  induction more using List.reverseRecOn with
  | nil => exact ⟨d, by rwa [List.append_nil], rfl, rfl⟩
  | append_singleton more call ih =>
    obtain ⟨e, there, params, result⟩ := ih
    obtain ⟨f, last, sameParams, sameResult⟩ := perform_types (afterCalls_sane true _).strict there call
    rw [← List.append_assoc, afterCalls_append]
    exact ⟨f, last, sameParams.trans params, sameResult.trans result⟩

def halve (op : BinaryOp) (operand : Double) : Call :=
  .add "halve" (.kernel ⟨[⟨"x", some .float⟩], 0, [.ret (.binary op (.param 0) (.const operand))]⟩) none none

def halveEither : Call :=
  .add "halve" (.kernel ⟨[⟨"x", some .float⟩, ⟨"y", some .float⟩], 0, [.ret (.param 1)]⟩) none none

end Registry
end GridKernel
