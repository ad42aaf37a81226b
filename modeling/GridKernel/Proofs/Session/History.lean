import GridKernel.Session.Copy
import GridKernel.Proofs.Cache.Slots
import GridKernel.Proofs.Function.Stamps
import GridKernel.Proofs.Kernel.Readability
import GridKernel.Proofs.Launch.Execution

namespace GridKernel

-- A loaded program stands for a kernel with the given helpers. The names of parameters may differ.
structure DeviceProgram.Serves (p : DeviceProgram) (k : Kernel) (functions : Snapshot) : Prop where
  fitting : p.Fitting
  body : p.request.body.SameUpToNames k.body
  types : p.request.types = k.types
  grid : p.request.grid = k.grid
  functions : p.request.functions = functions

-- A program under a key. Its helpers need not be registered any more, but their stamps were given
-- by the registry.
structure Compiled.Built (c : Compiled) (r : Registry) (key : Signature) : Prop where
  fitting : c.program.Fitting
  key : key = ⟨c.program.request.body.stream, c.program.request.types, c.program.request.grid.axes,
    c.program.request.functions.fingerprint⟩
  known : ∀ d ∈ c.program.request.functions.functions, r.Knows d

theorem Grid.eq_of_axes {g h : Grid} (same : g.axes = h.axes) : g = h := by
  cases g
  cases h
  cases same
  rfl

-- A key is found again only by the kernel and the helpers it was made from.
theorem Compiled.Built.serves {c : Compiled} {r : Registry} {k : Kernel} (built : c.Built r (k.signature r)) :
    c.program.Serves k (k.functions r) := by
  have key := built.key
  simp only [Kernel.signature, Kernel.signatureOf, Kernel.id, Signature.mk.injEq] at key
  obtain ⟨body, types, axes, functions⟩ := key
  refine ⟨built.fitting, Body.sameUpToNames_of_stream _ _ body.symm, types.symm, Grid.eq_of_axes axes.symm, ?_⟩
  exact Registry.eq_of_fingerprint r _ k.body.calls built.known functions.symm

theorem Compiled.Built.store {c : Compiled} {r : Registry} {key : Signature} (built : c.Built r key)
    (d : Definition) : c.Built (r.store d) key :=
  ⟨built.fitting, built.key, fun e member => Registry.knows_store r e d (built.known e member)⟩

structure Session.Sound (s : Session) : Prop where
  registry : s.registry.Valid
  generator : s.synthesize = Shader.generate
  order : ∀ d, s.device = some d → d.hostOrder = some s.codec.order
  cache : ∀ entry ∈ s.cache.slots, ∃ found, entry.2 = .ready found ∧ found.artifact.Built s.registry entry.1

-- What is done to a session from outside. A kernel is a value of its user: any one can be given,
-- on any route.
inductive Session.Action where
  | compile (body : Body) (settings : Settings)
  | run (k : Kernel) (args : List Arg)
  | shader (k : Kernel)
  | copy (b : Encoded)
  | register (d : Definition)
  -- The registry is shared, so others register in it too; the session does not hear of it.
  | define (d : Definition)
  | faults (switches : Faults)
  | lose
  | restore

namespace Session

def step (s : Session) : Action → Session
  | .compile body settings => (s.compile body settings).1
  | .run k args => (s.run k args).1
  | .shader k => (s.shader k).1
  | .copy b => (s.copy b).1
  | .register d => (s.register d).1
  | .define d => { s with registry := (s.registry.register d).1 }
  | .faults switches => { s with device := s.device.map fun d => { d with faults := switches } }
  | .lose => { s with device := s.device.map Device.lose }
  | .restore => { s with device := s.device.map Device.restore }

def after (device : Option Device) (order : ByteOrder) (strict : Bool) (capacity : Option Nat)
    (history : List Action) : Session :=
  history.foldl step (Session.new device order strict capacity Shader.generate)

theorem new_sound (device : Option Device) (order : ByteOrder) (strict : Bool) (capacity : Option Nat) :
    (Session.new device order strict capacity Shader.generate).Sound := by
  refine ⟨Registry.new_valid strict, rfl, ?_, by simp [Session.new, Cache.new]⟩
  intro d attached
  obtain ⟨_, _, rfl⟩ := Option.map_eq_some_iff.mp attached
  rfl

theorem store_sound (s : Session) (d : Definition) (sound : s.Sound) (checked : d.validate = .ok ())
    (cache : ProgramCache) (kept : ∀ entry ∈ cache.slots, entry ∈ s.cache.slots) :
    ({ s with registry := s.registry.store d, cache := cache } : Session).Sound := by
  refine ⟨Registry.store_valid _ _ sound.registry checked, sound.generator, sound.order, ?_⟩
  intro entry member
  obtain ⟨found, ready, built⟩ := sound.cache entry (kept entry member)
  exact ⟨found, ready, built.store d⟩

-- A refused definition changes nothing. An accepted one is stored, and the programs of the one it replaces are dropped.
theorem register_cases (s : Session) (d : Definition) :
    (∃ e, s.register d = (s, .error e)) ∨
      ∃ how cache, s.registry.register d = (s.registry.store d, .ok how) ∧
        (how = .added ∧ cache = s.cache ∨ how = .replaced ∧ cache = (s.cache.invalidate d.name).1) ∧
        s.register d = ({ s with registry := s.registry.store d, cache := cache }, .ok ()) := by
  unfold Session.register
  rcases s.registry.register_cases d with ⟨e, refused⟩ | ⟨how, accepted, _⟩
  · rw [refused]
    exact .inl ⟨e, rfl⟩
  · rw [accepted]
    cases how with
    | added => exact .inr ⟨_, _, rfl, .inl ⟨rfl, rfl⟩, rfl⟩
    | replaced => exact .inr ⟨_, _, rfl, .inr ⟨rfl, rfl⟩, rfl⟩

theorem step_registers (s : Session) {d : Definition} {action : Action} (registers : action = .register d ∨ action = .define d) :
    s.step action = s ∨
      ∃ how cache, s.registry.register d = (s.registry.store d, .ok how) ∧
        (cache = s.cache ∨ cache = (s.cache.invalidate d.name).1) ∧
        s.step action = { s with registry := s.registry.store d, cache := cache } := by
  rcases registers with rfl | rfl
  · rw [step]
    rcases s.register_cases d with ⟨e, refused⟩ | ⟨how, cache, stored, cached, accepted⟩
    · exact .inl (by rw [refused])
    · exact .inr ⟨how, cache, stored, cached.imp And.right And.right, by rw [accepted]⟩
  · rw [step]
    rcases s.registry.register_cases d with ⟨e, refused⟩ | ⟨how, stored, _⟩
    · exact .inl (by rw [refused])
    · exact .inr ⟨how, s.cache, stored, .inl rfl, by rw [stored]⟩

theorem registers_sound (s : Session) {d : Definition} {action : Action} (registers : action = .register d ∨ action = .define d)
    (sound : s.Sound) : (s.step action).Sound := by
  rcases s.step_registers registers with same | ⟨how, cache, stored, cached, next⟩
  · rw [same]
    exact sound
  · rw [next]
    refine store_sound s d sound (Registry.register_parts stored).1 cache ?_
    rcases cached with rfl | rfl
    · exact fun _ member => member
    · exact fun entry member => Cache.mem_of_mem_invalidate _ _ entry member

theorem update_sound (s : Session) (sound : s.Sound) (cache : ProgramCache) (device : Device)
    (slots : ∀ entry ∈ cache.slots, entry ∈ s.cache.slots ∨
      ∃ found, entry.2 = .ready found ∧ found.artifact.Built s.registry entry.1)
    (order : device.hostOrder = some s.codec.order) :
    ({ s with cache := cache, device := some device } : Session).Sound := by
  refine ⟨sound.registry, sound.generator, ?_, ?_⟩
  · intro d same
    cases same
    exact order
  · intro entry member
    rcases slots entry member with old | new
    · exact sound.cache entry old
    · exact new

theorem mapDevice_sound (s : Session) (sound : s.Sound) (change : Device → Device)
    (kept : ∀ d, (change d).hostOrder = d.hostOrder) :
    ({ s with device := s.device.map change } : Session).Sound := by
  refine ⟨sound.registry, sound.generator, ?_, sound.cache⟩
  intro e mapped
  obtain ⟨d, present, rfl⟩ := Option.map_eq_some_iff.mp mapped
  exact (kept d).trans (sound.order d present)

end Session

theorem Text.occurs_iff (pattern text : List Char) : Text.occurs pattern text = true ↔ pattern <:+: text := by
  induction text with
  | nil => cases pattern <;> simp [Text.occurs]
  | cons c cs ih => simp only [Text.occurs, Bool.or_eq_true, List.isPrefixOf_iff_prefix, ih, List.infix_cons_iff]

namespace Shader

theorem toList_lines (lines : List String) (start : String) :
    (lines.foldl (fun text line => text ++ line ++ "\n") start).toList =
      start.toList ++ lines.flatMap fun line => line.toList ++ ['\n'] := by
  induction lines generalizing start with
  | nil => simp
  | cons line lines ih => simp [ih]

-- The line of the entry point is among the last lines of every program.
theorem entry_occurs (p : Program) :
    Text.occurs ("fn " ++ entryName ++ "(").toList p.text.toList = true := by
  have line : "fn " ++ entryName ++ "(@builtin(global_invocation_id) gid: vec3<u32>) \x7b" ∈ p.lines := by
    simp [Program.lines, entryLines]
  rw [Text.occurs_iff, Program.text, toList_lines]
  obtain ⟨before, later, split⟩ := List.append_of_mem line
  rw [split]
  refine ⟨before.flatMap fun line => line.toList ++ ['\n'],
    "@builtin(global_invocation_id) gid: vec3<u32>) \x7b".toList ++ '\n' ::
      later.flatMap fun line => line.toList ++ ['\n'], ?_⟩
  simp

theorem build_manifest (r : Request) (program : Program) (built : build r = .ok program) :
    program.manifest = Manifest.ofTypes r.types r.grid workgroupSize := by
  unfold build at built
  obtain ⟨_, _, rest⟩ := bind_eq_ok built
  obtain ⟨_, _, rest⟩ := bind_eq_ok rest
  obtain ⟨_, _, rest⟩ := bind_eq_ok rest
  cases rest
  rfl

theorem generate_eq (r : Request) : generate r = ((build r).mapError .compilationFailed).map
    fun program => ⟨program.text, entryName, Manifest.ofTypes r.types r.grid workgroupSize, r⟩ := by
  unfold generate synthesize
  cases built : build r with
  | error cause => rfl
  | ok program => simp [bind, Except.bind, Except.mapError, Except.map, build_manifest r program built]

end Shader

-- A device refuses a generated shader only while it is lost or told to.
theorem Device.compile_parts (d : Device) (program : Shader.Program) (m : Manifest) (r : Request) :
    ((d.lost || d.faults.compile) = true ∧
      ∃ cause, d.compile ⟨program.text, Shader.entryName, m, r⟩ = .error cause) ∨
    (d.lost || d.faults.compile) = false ∧
      d.compile ⟨program.text, Shader.entryName, m, r⟩ = .ok (⟨m, r⟩, { d with built := d.built + 1 }) := by
  unfold Device.compile
  cases d.lost with
  | true => exact .inl ⟨rfl, _, rfl⟩
  | false =>
    cases d.faults.compile with
    | true => exact .inl ⟨rfl, _, rfl⟩
    | false =>
      rw [Shader.entry_occurs program]
      exact .inr ⟨rfl, rfl⟩

namespace Session

-- A build fails as a compilation and leaves the device alone, or it loads the kernel's own program.
theorem build_parts (s : Session) (generator : s.synthesize = Shader.generate) (device : Device) (k : Kernel)
    (functions : Snapshot) :
    (∃ cause, s.build device k functions = (device, .error (.compilationFailed cause)) ∧
      ((∃ refused, Shader.build (k.request functions) = .error refused) ∨
        (device.lost || device.faults.compile) = true)) ∨
    ∃ text, s.build device k functions = ({ device with built := device.built + 1 },
      .ok ⟨k.signatureOf functions, functions.names,
        ⟨⟨Manifest.ofTypes k.types k.grid Shader.workgroupSize, k.request functions⟩, text⟩⟩) := by
  unfold build
  rw [generator, Shader.generate_eq]
  cases Shader.build (k.request functions) with
  | error cause => exact .inl ⟨cause, rfl, .inl ⟨cause, rfl⟩⟩
  | ok program =>
    simp only [Except.mapError, Except.map]
    rcases device.compile_parts program (Manifest.ofTypes (k.request functions).types
      (k.request functions).grid Shader.workgroupSize) (k.request functions) with
      ⟨down, cause, refused⟩ | ⟨_, loaded⟩
    · rw [refused]
      exact .inl ⟨cause, rfl, .inr down⟩
    · rw [loaded]
      exact .inr ⟨program.text, rfl⟩

theorem built_own (r : Registry) (valid : r.Valid) (k : Kernel) (text : String) :
    Compiled.Built ⟨⟨Manifest.ofTypes k.types k.grid Shader.workgroupSize, k.request (k.functions r)⟩, text⟩ r
      (k.signature r) :=
  ⟨rfl, rfl, fun d member => Registry.knows_of_mem r valid d (Registry.snapshot_mem r _ d member)⟩

-- The slot of a key that was absent is pending during its build; settling fills or frees it.
theorem mem_finish_lead (c : ProgramCache) (key : Signature) (flight : Nat) (outcome : Outcome Signature Compiled)
    (looked : (c.lookup key).2 = .leads flight) (entry : Signature × Slot Signature Compiled)
    (member : entry ∈ ((c.lookup key).1.finish key flight outcome).slots) :
    (∃ found, outcome = .ok found ∧ entry = (key, .ready found)) ∨ entry ∈ c.slots := by
  rcases Cache.mem_of_mem_settle _ _ _ _ member with new | ⟨old, other⟩
  · exact .inl new
  · rcases c.lookup_parts key with ⟨_, _, hit, _⟩ | ⟨_, _, joined, _⟩ | ⟨_, _, cache⟩
    · rw [hit] at looked
      cases looked
    · rw [joined] at looked
      cases looked
    · rw [cache] at old
      rcases (Cache.mem_withSlot _ _ _ _).mp old with rfl | ⟨kept, _⟩
      · exact absurd rfl other
      · exact .inr kept

theorem program_parts (s : Session) (sound : s.Sound) (k : Kernel) :
    (s.program k).1.Sound ∧ (s.program k).1.registry = s.registry ∧
      ((∃ cause, (s.program k).2 = .error (.compilationFailed cause)) ∨
        ∃ found, (s.program k).2 = .ok found ∧ found.artifact.program.Serves k (k.functions s.registry)) := by
  have parts := s.cache.lookup_parts (k.signature s.registry)
  have settled := mem_finish_lead s.cache (k.signature s.registry)
  unfold program
  cases present : s.device with
  | none => exact ⟨sound, rfl, .inl ⟨_, rfl⟩⟩
  | some device =>
    have order := sound.order device present
    cases looked : s.cache.lookup (k.signature s.registry) with
    | mk cache what =>
      rw [looked] at parts settled
      have keyed : s.cache.lookup (k.signatureOf (k.functions s.registry)) = (cache, what) := looked
      dsimp only
      rw [keyed]
      cases what with
      | hit found =>
        rcases parts with ⟨_, member, hit, stored⟩ | ⟨_, _, joined, _⟩ | ⟨_, leads, _⟩
        · obtain ⟨_, ready, built⟩ := sound.cache _ member
          cases hit
          cases ready
          subst stored
          exact ⟨update_sound s sound _ device (fun _ old => .inl old) order, rfl, .inr ⟨_, rfl, built.serves⟩⟩
        · cases joined
        · cases leads
      | joined flight =>
        rcases parts with ⟨_, _, hit, _⟩ | ⟨_, member, _, _⟩ | ⟨_, leads, _⟩
        · cases hit
        · obtain ⟨_, ready, _⟩ := sound.cache _ member
          cases ready
        · cases leads
      | leads flight =>
        dsimp only
        rcases s.build_parts sound.generator device k (k.functions s.registry) with
          ⟨cause, failed, _⟩ | ⟨text, made⟩
        · rw [failed]
          refine ⟨update_sound s sound _ device ?_ order, rfl, .inl ⟨cause, rfl⟩⟩
          intro entry member
          rcases settled flight _ rfl entry member with ⟨_, ok, _⟩ | old
          · cases ok
          · exact .inl old
        · rw [made]
          have own := built_own s.registry sound.registry k text
          refine ⟨update_sound s sound _ _ ?_ order, rfl, .inr ⟨_, rfl, own.serves⟩⟩
          intro entry member
          rcases settled flight _ rfl entry member with ⟨_, ok, rfl⟩ | old
          · cases ok
            exact .inr ⟨_, rfl, own⟩
          · exact .inl old

theorem execute_hostOrder (s : Session) (device : Device) (k : Kernel) (p : DeviceProgram) (args : List Arg) :
    (s.execute device k p args).1.hostOrder = device.hostOrder := by
  unfold execute
  split
  · rfl
  · rename_i inputs _
    have kept := device.run_hostOrder s.codec p inputs (Kernel.scalarWords args p.manifest.scalarParams)
      k.grid.outputShape
    generalize device.run s.codec p inputs _ k.grid.outputShape = ran at kept
    obtain ⟨after, result⟩ := ran
    cases result <;> exact kept

theorem runDevice_sound (s : Session) (sound : s.Sound) (k : Kernel) (args : List Arg) :
    (s.runDevice k args).1.Sound ∧ (s.runDevice k args).1.registry = s.registry := by
  have parts := s.program_parts sound k
  unfold runDevice
  split
  · exact ⟨sound, rfl⟩
  · generalize s.program k = asked at parts
    obtain ⟨next, outcome⟩ := asked
    obtain ⟨still, same, _⟩ := parts
    cases outcome with
    | error e => exact ⟨still, same⟩
    | ok found =>
      dsimp only
      cases present : next.device with
      | none => exact ⟨still, same⟩
      | some device =>
        exact ⟨update_sound next still next.cache _ (fun _ old => .inl old)
          ((next.execute_hostOrder device k _ args).trans (still.order device present)), same⟩

theorem run_sound (s : Session) (sound : s.Sound) (k : Kernel) (args : List Arg) :
    (s.run k args).1.Sound ∧ (s.run k args).1.registry = s.registry := by
  have next := s.runDevice_sound sound k args
  unfold run
  split
  · exact ⟨sound, rfl⟩
  · split
    · exact ⟨sound, rfl⟩
    · generalize s.runDevice k args = ran at next
      obtain ⟨after, result⟩ := ran
      cases result with
      | ok out => exact next
      | error e =>
        dsimp only
        split <;> exact next

theorem compile_sound (s : Session) (sound : s.Sound) (body : Body) (settings : Settings) :
    (s.compile body settings).1.Sound ∧ (s.compile body settings).1.registry = s.registry := by
  unfold compile
  split
  · exact ⟨sound, rfl⟩
  · rename_i k _
    split
    · exact ⟨sound, rfl⟩
    · obtain ⟨next, same, _⟩ := s.program_parts sound k
      dsimp only
      generalize s.program k = asked at next same
      obtain ⟨after, outcome⟩ := asked
      cases outcome with
      | ok found => exact ⟨next, same⟩
      | error e =>
        dsimp only
        split <;> exact ⟨next, same⟩

theorem shader_sound (s : Session) (sound : s.Sound) (k : Kernel) :
    (s.shader k).1.Sound ∧ (s.shader k).1.registry = s.registry := by
  obtain ⟨next, same, _⟩ := s.program_parts sound k
  unfold shader
  split
  · exact ⟨sound, rfl⟩
  · generalize s.program k = asked at next same
    obtain ⟨after, outcome⟩ := asked
    cases outcome <;> exact ⟨next, same⟩

theorem copy_sound (s : Session) (sound : s.Sound) (b : Encoded) :
    (s.copy b).1.Sound ∧ (s.copy b).1.registry = s.registry := by
  unfold copy
  split
  · exact ⟨sound, rfl⟩
  · rename_i source _
    split
    · exact ⟨sound, rfl⟩
    · obtain ⟨compiled, same⟩ := s.compile_sound sound (copyBody b.shape.length) { dimensions := some b.shape.reverse }
      generalize s.compile (copyBody b.shape.length) { dimensions := some b.shape.reverse } = made at compiled same
      obtain ⟨middle, outcome⟩ := made
      cases outcome with
      | error e => exact ⟨compiled, same⟩
      | ok k =>
        obtain ⟨ran, kept⟩ := middle.run_sound compiled k [.array source]
        have back := kept.trans same
        dsimp only
        generalize middle.run k [.array source] = result at ran back
        obtain ⟨after, _, out⟩ := result
        cases out <;> exact ⟨ran, back⟩

theorem step_sound (s : Session) (action : Action) (sound : s.Sound) : (s.step action).Sound := by
  cases action with
  | compile body settings => exact (s.compile_sound sound body settings).1
  | run k args => exact (s.run_sound sound k args).1
  | shader k => exact (s.shader_sound sound k).1
  | copy b => exact (s.copy_sound sound b).1
  | register d => exact s.registers_sound (.inl rfl) sound
  | define d => exact s.registers_sound (.inr rfl) sound
  | faults switches => exact mapDevice_sound s sound _ fun _ => rfl
  | lose => exact mapDevice_sound s sound _ fun _ => rfl
  | restore =>
    refine mapDevice_sound s sound _ fun d => ?_
    unfold Device.restore
    split <;> rfl

theorem after_sound (device : Option Device) (order : ByteOrder) (strict : Bool) (capacity : Option Nat)
    (history : List Action) : (after device order strict capacity history).Sound := by
  have run : ∀ (history : List Action) (s : Session), s.Sound → (history.foldl step s).Sound := by
    intro history
    induction history with
    | nil => exact fun _ sound => sound
    | cons action rest ih => exact fun s sound => ih _ (s.step_sound action sound)
  exact run history _ (new_sound device order strict capacity)

end Session
end GridKernel
