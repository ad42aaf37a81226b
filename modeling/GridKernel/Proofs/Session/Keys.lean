import GridKernel.Proofs.Session.Refinement

namespace GridKernel

namespace Registry

-- What a later registry has kept of an earlier one: no stamp has come to mean something else.
def Extends (before later : Registry) : Prop := ∀ d, before.Knows d → later.Knows d

theorem extends_refl (r : Registry) : r.Extends r := fun _ known => known

theorem extends_of_eq {before later : Registry} (same : later = before) : before.Extends later := by
  rw [same]
  exact extends_refl before

theorem extends_trans {a b c : Registry} (ab : a.Extends b) (bc : b.Extends c) : a.Extends c :=
  fun d known => bc d (ab d known)

theorem extends_store (r : Registry) (new : Definition) : r.Extends (r.store new) :=
  fun d known => knows_store r d new known

theorem register_extends {r next : Registry} {d : Definition} {how : Registration}
    (accepted : r.register d = (next, .ok how)) : r.Extends next := by
  obtain ⟨_, rfl, _⟩ := register_parts accepted
  exact extends_store r d

end Registry

namespace Session

theorem registers_extends (s : Session) {d : Definition} {action : Action} (registers : action = .register d ∨ action = .define d) :
    s.registry.Extends (s.step action).registry := by
  rcases s.step_registers registers with same | ⟨how, cache, stored, _, next⟩
  · rw [same]
    exact Registry.extends_refl s.registry
  · rw [next]
    exact Registry.register_extends stored

theorem step_extends (s : Session) (action : Action) (sound : s.Sound) :
    s.registry.Extends (s.step action).registry := by
  cases action with
  | compile body settings => exact Registry.extends_of_eq (s.compile_sound sound body settings).2
  | run k args => exact Registry.extends_of_eq (s.run_sound sound k args).2
  | shader k => exact Registry.extends_of_eq (s.shader_sound sound k).2
  | copy b => exact Registry.extends_of_eq (s.copy_sound sound b).2
  | register d => exact s.registers_extends (.inl rfl)
  | define d => exact s.registers_extends (.inr rfl)
  | faults switches => exact Registry.extends_refl s.registry
  | lose => exact Registry.extends_refl s.registry
  | restore => exact Registry.extends_refl s.registry

theorem run_extends (history : List Action) (s : Session) (sound : s.Sound) :
    s.registry.Extends (history.foldl step s).registry := by
  induction history generalizing s with
  | nil => exact Registry.extends_refl s.registry
  | cons action rest ih =>
    exact Registry.extends_trans (s.step_extends action sound) (ih (s.step action) (s.step_sound action sound))

def registryAt (device : Option Device) (order : ByteOrder) (strict : Bool) (capacity : Option Nat)
    (history : List Action) (moment : Nat) : Registry :=
  (after device order strict capacity (history.take moment)).registry

section Moments

variable (device : Option Device) (order : ByteOrder) (strict : Bool) (capacity : Option Nat) (history : List Action)

theorem registryAt_valid (moment : Nat) : (registryAt device order strict capacity history moment).Valid :=
  (after_sound device order strict capacity (history.take moment)).registry

theorem registryAt_extends {earlier later : Nat} (before : earlier ≤ later) :
    (registryAt device order strict capacity history earlier).Extends
      (registryAt device order strict capacity history later) := by
  have split : history.take later = history.take earlier ++ (history.take later).drop earlier := by
    conv_lhs => rw [← List.take_append_drop earlier (history.take later)]
    rw [List.take_take, Nat.min_eq_left before]
  rw [registryAt, registryAt, split, after, after, List.foldl_append]
  exact run_extends _ _ (after_sound device order strict capacity (history.take earlier))

end Moments

end Session

-- The same stamps under a registry that has kept those of the other moment mean the same helpers.
theorem Kernel.functions_eq {before later : Registry} (valid : before.Valid) (kept : before.Extends later)
    (k l : Kernel) (same : (k.functions before).fingerprint = (l.functions later).fingerprint) :
    k.functions before = l.functions later := by
  refine Registry.eq_of_fingerprint later _ l.body.calls ?_ same
  intro d member
  exact kept d (Registry.knows_of_mem before valid d (Registry.snapshot_mem before _ d member))

-- Neither the program nor the run on the host reads the name of a parameter.
theorem Shader.build_sameUpToNames (functions : Snapshot) (a b : Body) (same : a.SameUpToNames b)
    (types : List ValueType) (grid : Grid) :
    Shader.build ⟨a, types, grid, functions⟩ = Shader.build ⟨b, types, grid, functions⟩ := by
  simp only [Shader.build, same.stmts]

theorem Host.run_sameUpToNames (functions : Snapshot) (a b : Body) (same : a.SameUpToNames b)
    (types : List ValueType) (grid : Grid) (args : List Arg) :
    Host.run functions a types grid args = Host.run functions b types grid args := by
  rw [Host.run, Host.run, Host.words_sameUpToNames functions a b same]

theorem Shader.synthesize_sameUpToNames (functions : Snapshot) (a b : Body) (same : a.SameUpToNames b)
    (types : List ValueType) (grid : Grid) :
    (Shader.synthesize ⟨a, types, grid, functions⟩).map (fun source => (source.text, source.entry, source.manifest)) =
      (Shader.synthesize ⟨b, types, grid, functions⟩).map fun source => (source.text, source.entry, source.manifest) := by
  rw [Shader.synthesize, Shader.synthesize, Shader.build_sameUpToNames functions a b same]
  cases Shader.build ⟨b, types, grid, functions⟩ <;> rfl

structure Kernel.Same (k l : Kernel) : Prop where
  body : k.body.SameUpToNames l.body
  types : k.types = l.types
  grid : k.grid = l.grid

theorem Kernel.same_of_signature {k l : Kernel} {r q : Registry} (same : k.signature r = l.signature q) :
    k.Same l ∧ (k.functions r).fingerprint = (l.functions q).fingerprint := by
  simp only [Kernel.signature, Kernel.signatureOf, Kernel.id, Signature.mk.injEq] at same
  obtain ⟨body, types, axes, functions⟩ := same
  exact ⟨⟨Body.sameUpToNames_of_stream _ _ body, types, Grid.eq_of_axes axes⟩, functions⟩

-- What a key leaves out makes no difference: the names of parameters are never read, and a stamp is never
-- given twice.
theorem Session.equal_keys_mean_equal_kernels (device : Option Device) (order : ByteOrder) (strict : Bool)
    (capacity : Option Nat) (history : List Session.Action) (first second : Nat) (k l : Kernel)
    (same : k.signature (registryAt device order strict capacity history first) =
      l.signature (registryAt device order strict capacity history second)) :
    (Shader.synthesize (k.request (k.functions (registryAt device order strict capacity history first)))).map
        (fun source => (source.text, source.entry, source.manifest)) =
      (Shader.synthesize (l.request (l.functions (registryAt device order strict capacity history second)))).map
        (fun source => (source.text, source.entry, source.manifest)) ∧
    ∀ args : List Arg,
      Host.run (k.functions (registryAt device order strict capacity history first)) k.body k.types k.grid args =
        Host.run (l.functions (registryAt device order strict capacity history second)) l.body l.types l.grid args := by
  obtain ⟨⟨body, types, grid⟩, stamps⟩ := Kernel.same_of_signature same
  -- Whichever moment is the earlier one, the later registry has kept its stamps.
  have functions : k.functions (registryAt device order strict capacity history first) =
      l.functions (registryAt device order strict capacity history second) := by
    rcases Nat.le_total first second with before | before
    · exact Kernel.functions_eq (registryAt_valid device order strict capacity history first)
        (registryAt_extends device order strict capacity history before) k l stamps
    · exact (Kernel.functions_eq (registryAt_valid device order strict capacity history second)
        (registryAt_extends device order strict capacity history before) l k stamps.symm).symm
  rw [Kernel.request, Kernel.request, functions, types, grid]
  refine ⟨Shader.synthesize_sameUpToNames _ _ _ body _ _, ?_⟩
  intro args
  exact Host.run_sameUpToNames _ _ _ body _ _ args

-- One helper that the kernel calls and one that it does not; the name of a built-in is refused.
def doubled : Definition :=
  .make "doubled" (.kernel ⟨[⟨"x", none⟩], 0, [.ret (.binary .add (.param 0) (.param 0))]⟩) none none

def doubledHistory : List Session.Action :=
  [.define doubled, .define { doubled with name := "clamp01" }, .lose, .define { doubled with name := "again" }]

-- The two kernels differ in the name of their parameter and in the route they take.
def doubledKernel (name : String) (route : Route) : Kernel where
  body := ⟨[⟨name, some .floatArray⟩], 0, [.ret (.call "doubled" [.index 0 [.thread .x]])]⟩
  types := [.floatArray]
  grid := ⟨[2], by decide, by decide, by decide⟩
  mode := .auto
  route := route

theorem doubled_functions (name : String) (route : Route) (r : Registry)
    (known : r.get? "doubled" = some { doubled with generation := 8 }) :
    (doubledKernel name route).functions r = ⟨[{ doubled with generation := 8 }], []⟩ := by
  have calls : (doubledKernel name route).body.calls = ["doubled"] := by rfl
  have none : doubled.body.calls = [] := by decide +kernel
  rw [Kernel.functions, calls, Registry.snapshot, Registry.close_known r _ "doubled" [] _ rfl known]
  rw [none, List.append_nil, Registry.close]
  rfl

theorem Session.doubled_twice :
    let r := registryAt (some {}) .little true none doubledHistory 1
    let q := registryAt (some {}) .little true none doubledHistory 4
    let k := doubledKernel "x" .device
    let l := doubledKernel "input" .pinned
    k.signature r = l.signature q ∧ r.size + 1 = q.size ∧
      (Shader.synthesize (k.request (k.functions r))).map (fun source => (source.text, source.entry, source.manifest)) =
        (Shader.synthesize (l.request (l.functions q))).map (fun source => (source.text, source.entry, source.manifest)) ∧
      ∀ args : List Arg, Host.run (k.functions r) k.body k.types k.grid args =
        Host.run (l.functions q) l.body l.types l.grid args := by
  intro r q k l
  have same : k.signature r = l.signature q := by
    rw [Kernel.signature, Kernel.signature, doubled_functions "x" .device r rfl, doubled_functions "input" .pinned q rfl]
    rfl
  have grown : r.size + 1 = q.size := by decide +kernel
  exact ⟨same, grown, equal_keys_mean_equal_kernels (some {}) .little true none doubledHistory 1 4 k l same⟩

end GridKernel
