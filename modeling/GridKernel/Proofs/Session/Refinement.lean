import GridKernel.Proofs.Session.Effects

namespace GridKernel

theorem Host.words_sameUpToNames (functions : Snapshot) (a b : Body) (same : a.SameUpToNames b)
    (types : List ValueType) (grid : Grid) (args : List Arg) :
    Host.words functions a types grid args = Host.words functions b types grid args := by
  have element : ∀ values, elementWord functions a grid.sizes values = elementWord functions b grid.sizes values := by
    intro values
    funext id
    simp only [elementWord, evaluate, same.stmts, same.locals]
  simp only [Host.words, element]

theorem DeviceProgram.Serves.hostWords {p : DeviceProgram} {k : Kernel} {functions : Snapshot}
    (serves : p.Serves k functions) (args : List Arg) :
    p.hostWords args = Host.words functions k.body k.types k.grid (args.map Arg.rounded) := by
  rw [DeviceProgram.hostWords, serves.functions, serves.types, serves.grid,
    Host.words_sameUpToNames _ _ _ serves.body]

theorem filled_of_fits (types : List ValueType) (args : List Arg) (fits : FittingArgs types args) :
    ∀ t ∈ args.filterMap Arg.tensor?, 0 < t.size := by
  induction fits with
  | nil => simp
  | cons head _ ih =>
    cases head with
    | float => exact ih
    | int => exact ih
    | array t filled =>
      intro u member
      rcases List.mem_cons.mp member with rfl | later
      · exact filled
      · exact ih u later

theorem Output.scalar_iff (grid : Grid) (words : Array Single) (size : words.size = grid.total) :
    (∃ v, Output.ofTensor ⟨grid.outputShape, .f32 words⟩ = .scalar v) ↔ grid.total = 1 := by
  simp only [Output.ofTensor, Tensor.size, Tensor.singles, Elements.size, Elements.singles, size]
  constructor
  · rintro ⟨v, scalar⟩
    split at scalar
    · assumption
    · cases scalar
  · intro one
    have inside : 0 < words.size := by omega
    exact ⟨words[0], by simp [one, inside]⟩

def Arg.HoldLeast (args : List Arg) : Prop := ∃ t, .array t ∈ args ∧ t.data.HoldsLeast

theorem Arg.mem_tensors {args : List Arg} {t : Tensor} : t ∈ args.filterMap Arg.tensor? ↔ .array t ∈ args := by
  rw [List.mem_filterMap]
  constructor
  · rintro ⟨arg, member, is⟩
    cases arg with
    | scalar v => cases is
    | array u =>
      cases is
      exact member
  · intro member
    exact ⟨_, member, rfl⟩

namespace Session

-- A failure that is the device's own, an integer that could not be counted before its array was uploaded, or the
-- failure that evaluation on the host meets.
def Explained (args : List Arg) (host : Except EvalError (Array Single)) (e : KernelError) : Prop :=
  e.Technical ∨ (e = .overflow ∧ Arg.HoldLeast args) ∨ ∃ cause, e = .ofRun (.ofEval cause) ∧ host = .error cause

theorem execute_parts (s : Session) (device : Device) (order : device.order = s.codec.order) (k : Kernel)
    (functions : Snapshot) (p : DeviceProgram) (serves : p.Serves k functions) (args : List Arg)
    (fits : FittingArgs k.types args) :
    let host := Host.words functions k.body k.types k.grid (args.map Arg.rounded)
    (∃ e, (s.execute device k p args).2 = .error e ∧ Explained args host e) ∨
      ∃ words, (s.execute device k p args).2 = .ok (Output.ofTensor ⟨k.grid.outputShape, .f32 words⟩) ∧
        host = .ok words := by
  have fits' : FittingArgs p.request.types args := serves.types ▸ fits
  have arrays : Kernel.arrays args p.manifest.arrayParams = args.filterMap Arg.tensor? := by
    rw [serves.fitting]
    exact arrays_positions _ _ fits'
  have scalars : Kernel.scalarWords args p.manifest.scalarParams = args.filterMap Arg.word? := by
    rw [serves.fitting]
    exact scalarWords_positions _ _ fits'
  dsimp only
  rw [← serves.hostWords args, ← serves.grid]
  unfold execute
  rw [arrays, scalars, ← serves.grid]
  cases encoded : (args.filterMap Arg.tensor?).mapM s.codec.encode with
  | error e =>
    obtain ⟨t, member, refused⟩ := mapM_eq_error encoded
    refine .inl ⟨e, rfl, ?_⟩
    rcases s.codec.encode_error t e refused (filled_of_fits _ _ fits t member) with technical | ⟨rfl, least⟩
    · exact .inl technical
    · exact .inr (.inl ⟨rfl, t, Arg.mem_tensors.mp member, least⟩)
  | ok inputs =>
    have parts := Device.run_parts s.codec device order p serves.fitting args fits' inputs encoded
    dsimp only at parts ⊢
    generalize device.run s.codec p inputs (args.filterMap Arg.word?) p.request.grid.outputShape = ran at parts
    obtain ⟨after, result⟩ := ran
    rcases parts with ⟨e, failed, cause⟩ | ⟨b, words, ended, host, decoded⟩
    · cases failed
      exact .inl ⟨e, rfl, cause.imp_right .inr⟩
    · cases ended
      exact .inr ⟨words, by simp only [decoded]; rfl, host⟩

-- A run on the device of a sound session ends as evaluation on the host ends, or the device
-- path itself fails.
theorem runDevice_parts (s : Session) (sound : s.Sound) (k : Kernel) (args : List Arg)
    (fits : FittingArgs k.types args) :
    let host := Host.words (k.functions s.registry) k.body k.types k.grid (args.map Arg.rounded)
    (∃ e, (s.runDevice k args).2 = .error e ∧ Explained args host e) ∨
      ∃ words, (s.runDevice k args).2 = .ok (Output.ofTensor ⟨k.grid.outputShape, .f32 words⟩) ∧
        host = .ok words := by
  have parts := s.program_parts sound k
  unfold runDevice
  split
  · exact .inl ⟨_, rfl, .inl trivial⟩
  · generalize s.program k = asked at parts
    obtain ⟨next, outcome⟩ := asked
    obtain ⟨still, _, failed | ⟨found, got, serves⟩⟩ := parts
    · obtain ⟨cause, rfl⟩ := failed
      exact .inl ⟨_, rfl, .inl trivial⟩
    · cases got
      dsimp only
      cases present : next.device with
      | none => exact .inl ⟨_, rfl, .inl trivial⟩
      | some device =>
        have order : device.order = next.codec.order := by simp [Device.order, still.order device present]
        exact next.execute_parts device order k _ found.artifact.program serves args fits

theorem runDevice_fresh (s : Session) (generator : s.synthesize = Shader.generate) (k : Kernel) (args : List Arg)
    (device : Device) (present : s.device = some device) (healthy : (device.lost || device.faults.compile) = false)
    (absent : s.cache.slot? (k.signature s.registry) = none)
    (expressible : (Shader.build (k.request (k.functions s.registry))).isOk = true) :
    (s.runDevice k args).2 = (s.execute { device with built := device.built + 1 } k
      ⟨Manifest.ofTypes k.types k.grid Shader.workgroupSize, k.request (k.functions s.registry)⟩ args).2 := by
  rcases s.build_parts generator device k (k.functions s.registry) with ⟨_, _, ⟨_, refused⟩ | down⟩ | ⟨text, built⟩
  · rw [refused] at expressible
    cases expressible
  · rw [healthy] at down
    cases down
  · have missing : s.cache.slot? (k.signatureOf (k.functions s.registry)) = none := absent
    simp only [runDevice, program, present, Cache.lookup, missing, built, execute]

theorem program_healthy {s : Session} (sound : s.Sound) {device : Device} (present : s.device = some device)
    (healthy : (device.lost || device.faults.compile) = false) {k : Kernel}
    (expressible : (Shader.build (k.request (k.functions s.registry))).isOk = true) :
    ∃ found, (s.program k).2 = .ok found := by
  have keyed : k.signatureOf (k.functions s.registry) = k.signature s.registry := rfl
  unfold program
  rw [present]
  simp only [keyed, Cache.lookup]
  cases slot : s.cache.slot? (k.signature s.registry) with
  | some held =>
    obtain ⟨program, ready, _⟩ := sound.cache _ (Cache.slot?_mem s.cache _ held slot)
    cases ready
    exact ⟨_, rfl⟩
  | none =>
    dsimp only
    rcases s.build_parts sound.generator device k (k.functions s.registry) with ⟨_, _, ⟨_, refused⟩ | down⟩ | ⟨text, built⟩
    · rw [refused] at expressible
      cases expressible
    · rw [healthy] at down
      cases down
    · rw [built]
      exact ⟨_, rfl⟩

theorem runDevice_lost {s : Session} (sound : s.Sound) {device : Device} (present : s.device = some device) {k : Kernel}
    {found : CachedProgram Signature Compiled} (got : (s.program k).2 = .ok found) {args : List Arg}
    (fits : FittingArgs k.types args) {e : KernelError} (refused : (args.filterMap Arg.tensor?).mapM s.codec.encode = .error e) :
    (s.runDevice k args).2 = .error e := by
  obtain ⟨cache, built, after, _⟩ := program_present present k
  obtain ⟨_, _, ⟨_, failed⟩ | ⟨_, same, serves⟩⟩ := s.program_parts sound k
  · cases failed.symm.trans got
  cases same.symm.trans got
  have arrays : Kernel.arrays args found.artifact.program.manifest.arrayParams = args.filterMap Arg.tensor? := by
    rw [serves.fitting]
    exact arrays_positions _ _ (serves.types ▸ fits)
  unfold runDevice
  rw [present]
  dsimp only
  generalize s.program k = asked at after got
  obtain ⟨next, outcome⟩ := asked
  cases after
  cases got
  simp only [execute, arrays, refused]

end Session

-- Whatever a session went through, a run on the device gives what the host gives for the rounded arguments,
-- under the helpers registered now.
theorem device_refines_host (device : Option Device) (order : ByteOrder) (strict : Bool)
    (capacity : Option Nat) (history : List Session.Action) (k : Kernel) (args : List Arg)
    (checked : k.checkArgs args = .ok ()) :
    let s := Session.after device order strict capacity history
    let host := Host.run (k.functions s.registry) k.body k.types k.grid (args.map Arg.rounded)
    (∀ out, (s.runDevice k args).2 = .ok out →
      host.map Output.ofTensor = .ok out ∧ ((∃ v, out = .scalar v) ↔ k.grid.total = 1)) ∧
    ∀ cause, (s.runDevice k args).2 = .error (.executionFailed (.device cause)) →
      host = .error (.evaluation cause) := by
  intro s host
  have sound := Session.after_sound device order strict capacity history
  have fits := (k.checkArgs_fits args).mp checked
  have hostEq : host = _ := Host.run_eq _ _ _ _ _
  rcases s.runDevice_parts sound k args fits with ⟨e, failed, explained⟩ | ⟨words, ran, words_eq⟩
  · refine ⟨fun out ended => ?_, fun cause ended => ?_⟩
    · rw [failed] at ended
      cases ended
    · rw [failed] at ended
      cases ended
      rcases explained with technical | ⟨same, _⟩ | ⟨fault, same, words_eq⟩
      · exact technical.elim
      · cases same
      · rcases KernelError.ofRun_ofEval fault with ⟨told, here⟩ | ⟨told, _⟩
        · cases same.trans told
          rw [hostEq, words_eq]
          exact congrArg Except.error here
        · cases same.trans told
  · refine ⟨fun out ended => ?_, fun cause ended => ?_⟩
    · rw [ran] at ended
      cases ended
      refine ⟨?_, Output.scalar_iff k.grid words (Host.words_size _ _ _ _ _ _ words_eq)⟩
      rw [hostEq, words_eq]
      rfl
    · rw [ran] at ended
      cases ended

-- One element of an array, at a position that is a number with a fraction.
def pickKernel : Kernel :=
  ⟨⟨[⟨"items", some .floatArray⟩, ⟨"at", some .int⟩], 0, [.ret (.index 0 [.param 1])]⟩, [.floatArray, .int],
    ⟨[1], by decide, by decide, by decide⟩, .auto, .device⟩

-- The second element is a tenth, which no 32-bit word equals.
def pickArgs : List Arg := [.array ⟨[2], .f64 #[⟨0x3ff0000000000000⟩, ⟨0x3fb999999999999a⟩]⟩, .scalar 1.5]

theorem pick_functions (r : Registry) : pickKernel.functions r = {} := by
  have none : pickKernel.body.calls = [] := rfl
  simp [Kernel.functions, none, Registry.snapshot, Registry.close]

theorem pick_runs_on_device :
    pickKernel.checkArgs pickArgs = .ok () ∧
      let s := Session.after (some {}) .big false (some 1) [.lose, .restore]
      ∃ out, (s.runDevice pickKernel pickArgs).2 = .ok out ∧ out.words = #[⟨0x3dcccccd⟩] ∧
        (Host.run (pickKernel.functions s.registry) pickKernel.body pickKernel.types pickKernel.grid
          (pickArgs.map Arg.rounded)).map Output.ofTensor = .ok out := by
  have checked : pickKernel.checkArgs pickArgs = .ok () := by decide
  refine ⟨checked, ?_⟩
  intro s
  have refines := (device_refines_host (some {}) .big false (some 1) [.lose, .restore] pickKernel pickArgs checked).1
  have fresh := s.runDevice_fresh rfl pickKernel pickArgs { hostOrder := some .big, generation := 1 } rfl rfl rfl
    (by rw [pick_functions]; decide +kernel)
  rw [pick_functions] at fresh
  have words : (s.execute { hostOrder := some .big, generation := 1, built := 1 } pickKernel
      ⟨Manifest.ofTypes pickKernel.types pickKernel.grid Shader.workgroupSize, pickKernel.request {}⟩
      pickArgs).2.toOption.map Output.words = some #[⟨0x3dcccccd⟩] := by
    decide +kernel
  generalize s.execute _ pickKernel _ pickArgs = ran at fresh words
  obtain ⟨_, result⟩ := ran
  cases result with
  | error e => cases words
  | ok out => exact ⟨out, fresh, Option.some.inj words, (refines out fresh).1⟩

end GridKernel
