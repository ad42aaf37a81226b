import GridKernel.Proofs.Buffer.Layout
import GridKernel.Proofs.Session.Refinement

namespace GridKernel

-- Rounding to 32-bit words changes no number that evaluation reads.
def Arg.Representable : Arg → Prop
  | .scalar v => (Single.ofFloat v).toFloat = v
  | .array t => ∀ i, (Elements.f32 t.singles).get? i = t.data.get? i

theorem Value.bind_rounded (position : Nat) (type : ValueType) (arg : Arg) (faithful : arg.Representable) :
    SameResult Value.Alike (Value.bind position type arg.rounded) (Value.bind position type arg) := by
  cases arg with
  | scalar v =>
    have same : (Single.ofFloat v).toFloat = v := faithful
    rw [Arg.rounded, same]
    cases type with
    | float => exact .ok (.scalar v)
    | int => exact .ok (.scalar _)
    | floatArray => exact .error _
  | array t =>
    have reads : ∀ i, (Elements.f32 t.singles).get? i = t.data.get? i := faithful
    cases type with
    | float => exact .error _
    | int => exact .error _
    | floatArray =>
      refine .ok (.array fun indices => ?_)
      have same : ∀ z y x, (View.ofTensor ⟨t.shape, .f32 t.singles⟩).elementAt z y x =
          (View.ofTensor t).elementAt z y x := by
        intro z y x
        simp only [View.elementAt, View.address, View.ofTensor, reads]
      have sizes : (View.ofTensor ⟨t.shape, .f32 t.singles⟩).sizes = (View.ofTensor t).sizes := rfl
      unfold View.load
      split <;> simp only [sizes, same]

theorem Value.bindFrom_rounded (position : Nat) (types : List ValueType) (args : List Arg)
    (faithful : ∀ arg ∈ args, arg.Representable) :
    SameResult AlikeArgs (Value.bindFrom position types (args.map Arg.rounded))
      (Value.bindFrom position types args) := by
  induction args generalizing position types with
  | nil => cases types <;> exact .ok .nil
  | cons arg args ih =>
    cases types with
    | nil => exact .ok .nil
    | cons type types =>
      exact .cons (Value.bind_rounded position type arg (faithful arg (by simp)))
        (ih (position + 1) types fun a member => faithful a (List.mem_cons_of_mem _ member))

theorem Host.words_rounded (functions : Snapshot) (body : Body) (types : List ValueType) (grid : Grid)
    (args : List Arg) (faithful : ∀ arg ∈ args, arg.Representable) :
    Host.words functions body types grid (args.map Arg.rounded) = Host.words functions body types grid args := by
  have bound := Value.bindFrom_rounded 0 types args faithful
  unfold Host.words Value.bindAll
  rw [List.length_map]
  split
  · rfl
  · revert bound
    generalize Value.bindFrom 0 types (args.map Arg.rounded) = rounded
    generalize Value.bindFrom 0 types args = given
    intro bound
    cases bound with
    | error e => rfl
    | @ok values others alike =>
      have same : elementWord functions body grid.sizes values = elementWord functions body grid.sizes others := by
        funext id
        simp only [elementWord, alike_evaluate _ _ _ _ _ alike]
      simp only [bind, Except.bind, same]

theorem Kernel.make_error_iff (body : Body) (settings : Settings) (cause : ArgumentFault) :
    Kernel.make body settings = .error cause ↔
      settings.grid = .error cause ∨
        ∃ grid, settings.grid = .ok grid ∧ body.validate body.inferredTypes = .error cause := by
  unfold Kernel.make
  cases settings.grid with
  | error e => simp [bind, Except.bind]
  | ok grid =>
    cases body.validate body.inferredTypes <;> simp [bind, Except.bind]

theorem Kernel.make_mode (body : Body) (settings : Settings) (k : Kernel)
    (made : Kernel.make body settings = .ok k) : k.mode = settings.mode := by
  unfold Kernel.make at made
  obtain ⟨grid, _, rest⟩ := bind_eq_ok made
  obtain ⟨_, _, last⟩ := bind_eq_ok rest
  cases last
  rfl

namespace Session

theorem fallsBack_of (k : Kernel) (e : KernelError) (mode : k.mode ≠ .gpu) (allowed : e.allowsFallback = true) :
    fallsBack k e = true := by
  simp [fallsBack, Mode.allowsFallback, mode, allowed]

theorem not_fallsBack_overflow (k : Kernel) : fallsBack k .overflow = false := by
  simp [fallsBack, KernelError.allowsFallback]

theorem compile_error_iff (s : Session) (sound : s.Sound) (body : Body) (settings : Settings)
    (mode : settings.mode ≠ .gpu) (e : KernelError) :
    (s.compile body settings).2 = .error e ↔
      ∃ cause, e = .invalidArgument cause ∧ Kernel.make body settings = .error cause := by
  unfold compile
  cases made : Kernel.make body settings with
  | error cause => simp [eq_comm]
  | ok k =>
    have hostAllowed : k.mode ≠ .gpu := Kernel.make_mode body settings k made ▸ mode
    dsimp only
    split
    · simp
    · have parts := (s.program_parts sound k).2.2
      generalize s.program k = asked at parts
      obtain ⟨next, outcome⟩ := asked
      rcases parts with ⟨cause, rfl⟩ | ⟨found, rfl, _⟩
      · simp [fallsBack_of k (.compilationFailed cause) hostAllowed rfl]
      · simp

-- The device path fails in a way that the host may answer, or an arithmetic operation overflows.
theorem Explained.cases {args : List Arg} {host : Except EvalError (Array Single)} {e : KernelError}
    (explained : Explained args host e) :
    e.allowsFallback = true ∨ e = .overflow ∧ (Arg.HoldLeast args ∨ ∃ cause, host = .error cause ∧ .ofEval cause = e) := by
  rcases explained with technical | ⟨rfl, least⟩ | ⟨cause, rfl, failed⟩
  · exact .inl technical.allowsFallback
  · exact .inr ⟨rfl, .inl least⟩
  · rcases KernelError.ofRun_ofEval cause with ⟨told, _⟩ | ⟨told, here⟩
    · rw [told]
      exact .inl rfl
    · rw [told]
      exact .inr ⟨rfl, .inr ⟨cause, failed, here⟩⟩

-- A run ends on the host, or as the host ends on the rounded arguments, or it overflows before it gets to the device.
theorem run_cases (s : Session) (sound : s.Sound) (k : Kernel) (mode : k.mode ≠ .gpu) (args : List Arg)
    (checked : k.checkArgs args = .ok ()) :
    let host := Host.words (k.functions s.registry) k.body k.types k.grid (args.map Arg.rounded)
    (s.run k args).2.2 = s.runHost k args ∨
      (s.run k args).2.2 = (host.mapError .ofEval).map (fun words => Output.ofTensor ⟨k.grid.outputShape, .f32 words⟩) ∨
      (s.run k args).2.2 = .error .overflow ∧ Arg.HoldLeast args ∧ s.device.isSome ∧ (s.attempt? k).isSome := by
  intro host
  have fits := (k.checkArgs_fits args).mp checked
  have parts := s.runDevice_parts sound k args fits
  have registry := (s.runDevice_sound sound k args).2
  have absent : s.device.isSome = false → (s.runDevice k args).2 = .error (.executionFailed .noContext) := by
    intro none
    rw [runDevice, Option.isNone_iff_eq_none.mp (Option.isSome_eq_false_iff.mp none)]
  unfold run
  rw [checked]
  dsimp only
  split
  · exact .inl rfl
  · rename_i attempted
    rw [attempted]
    generalize s.runDevice k args = ran at parts registry absent
    obtain ⟨next, result⟩ := ran
    rcases parts with ⟨e, failed, explained⟩ | ⟨words, ended, computed⟩
    · cases failed
      dsimp only at registry absent ⊢
      rcases explained.cases with allowed | ⟨rfl, lost⟩
      · rw [if_pos (fallsBack_of k e mode allowed)]
        exact .inl (by simp only [runHost, registry])
      · rw [not_fallsBack_overflow]
        rcases lost with least | ⟨cause, met, here⟩
        · refine .inr (.inr ⟨rfl, least, ?_, rfl⟩)
          cases present : s.device.isSome with
          | true => rfl
          | false => cases absent present
        · refine .inr (.inl ?_)
          rw [show host = .error cause from met, ← here]
          rfl
    · cases ended
      refine .inr (.inl ?_)
      rw [show host = .ok words from computed]
      rfl

theorem run_eq_runHost (s : Session) (sound : s.Sound) (k : Kernel) (mode : k.mode ≠ .gpu) (args : List Arg)
    (faithful : ∀ arg ∈ args, arg.Representable) (checked : k.checkArgs args = .ok ()) :
    (s.run k args).2.2 = s.runHost k args ∨
      (s.run k args).2.2 = .error .overflow ∧ Arg.HoldLeast args ∧ s.device.isSome ∧ (s.attempt? k).isSome := by
  rcases s.run_cases sound k mode args checked with same | ended | lost
  · exact .inl same
  · left
    rw [Host.words_rounded _ _ _ _ _ faithful] at ended
    rw [ended, runHost, Host.run_eq]
    cases Host.words (k.functions s.registry) k.body k.types k.grid args <;> rfl
  · exact .inr lost

-- The other way round: the least integer is not passed by where a program is at hand to be run on it.
theorem encode_holdLeast (c : Codec) {types : List ValueType} {args : List Arg} (fits : FittingArgs types args)
    (small : ∀ t, .array t ∈ args → t.size ≤ maxTextureSide * maxTextureSide) (least : Arg.HoldLeast args) :
    (args.filterMap Arg.tensor?).mapM c.encode = .error .overflow := by
  have laid : ∀ t ∈ args.filterMap Arg.tensor?, ∃ texture, Texture.ofElements t.size = .ok texture := by
    intro t member
    exact Texture.ofElements_ok t.size (filled_of_fits _ _ fits t member) (small t (Arg.mem_tensors.mp member))
  cases encoded : (args.filterMap Arg.tensor?).mapM c.encode with
  | ok inputs =>
    obtain ⟨t, member, held⟩ := least
    obtain ⟨texture, fine⟩ := laid t (Arg.mem_tensors.mpr member)
    obtain ⟨b, done⟩ := mapM_ok_iff.mp ⟨_, encoded⟩ t (Arg.mem_tensors.mpr member)
    cases (c.encode_least t texture fine held).symm.trans done
  | error e =>
    obtain ⟨t, member, refused⟩ := mapM_eq_error encoded
    obtain ⟨texture, fine⟩ := laid t member
    by_cases held : t.data.HoldsLeast
    · exact congrArg Except.error (Except.error.inj (refused.symm.trans (c.encode_least t texture fine held)))
    · cases (c.encode_laid t texture fine held).symm.trans refused

theorem run_lost {s : Session} (sound : s.Sound) {k : Kernel} (tries : (s.attempt? k).isSome = true)
    {found : CachedProgram Signature Compiled} (got : (s.program k).2 = .ok found) {args : List Arg}
    (checked : k.checkArgs args = .ok ()) (small : ∀ t, .array t ∈ args → t.size ≤ maxTextureSide * maxTextureSide)
    (least : Arg.HoldLeast args) : (s.run k args).2.2 = .error .overflow := by
  obtain ⟨signature, attempted⟩ := Option.isSome_iff_exists.mp tries
  have fits := (k.checkArgs_fits args).mp checked
  cases present : s.device with
  | none => cases (congrArg Prod.snd (program_absent present k)).symm.trans got
  | some device =>
    have lost := runDevice_lost sound present got fits (encode_holdLeast s.codec fits small least)
    simp only [run, checked, attempted]
    generalize s.runDevice k args = ran at lost
    obtain ⟨next, result⟩ := ran
    cases lost
    simp only [not_fallsBack_overflow, Bool.false_eq_true, if_false]

theorem runHost_error (s : Session) (k : Kernel) (args : List Arg) (e : KernelError)
    (failed : s.runHost k args = .error e) : ∃ cause, e = .ofEval cause := by
  have refused := map_eq_error failed
  rw [Host.run_eq] at refused
  obtain ⟨cause, _, rfl⟩ := mapError_eq_error (map_eq_error refused)
  exact ⟨cause, rfl⟩

theorem run_error (s : Session) (sound : s.Sound) (k : Kernel) (mode : k.mode ≠ .gpu) (args : List Arg)
    (faithful : ∀ arg ∈ args, arg.Representable) (checked : k.checkArgs args = .ok ()) (e : KernelError)
    (failed : (s.run k args).2.2 = .error e) : e = .overflow ∨ ∃ cause, e = .evaluation cause := by
  rcases s.run_eq_runHost sound k mode args faithful checked with same | ⟨lost, _⟩
  · obtain ⟨cause, rfl⟩ := s.runHost_error k args e (same.symm.trans failed)
    rcases KernelError.ofRun_ofEval cause with ⟨_, here⟩ | ⟨_, here⟩
    · exact .inr ⟨cause, here⟩
    · exact .inl here
  · cases lost.symm.trans failed
    exact .inl rfl

end Session

-- A kernel that may run on the host compiles unless its grid or its body is invalid, and its runs are refused for their
-- arguments alone. Otherwise they end as the host ends, but for one integer: with a program for the device at hand, an
-- array that holds the least of them is not answered.
theorem fallback_is_transparent (device : Option Device) (order : ByteOrder) (strict : Bool)
    (capacity : Option Nat) (history : List Session.Action) :
    let s := Session.after device order strict capacity history
    (∀ (body : Body) (settings : Settings), settings.mode ≠ .gpu → ∀ e,
      (s.compile body settings).2 = .error e ↔ ∃ cause, e = .invalidArgument cause ∧
        (settings.grid = .error cause ∨
          ∃ grid, settings.grid = .ok grid ∧ body.validate body.inferredTypes = .error cause)) ∧
    ∀ (k : Kernel) (args : List Arg), k.mode ≠ .gpu → (∀ arg ∈ args, arg.Representable) →
      let host := (Host.run (k.functions s.registry) k.body k.types k.grid args).map Output.ofTensor
      (∀ cause, (s.run k args).2.2 = .error (.invalidArgument cause) ↔ k.checkArgs args = .error cause) ∧
      (k.checkArgs args = .ok () → ¬ Arg.HoldLeast args → (s.run k args).2.2 = host) ∧
      (k.checkArgs args = .ok () → (s.run k args).2.2 = host ∨
        (s.run k args).2.2 = .error .overflow ∧ Arg.HoldLeast args ∧ s.device.isSome ∧ (s.attempt? k).isSome) ∧
      (k.checkArgs args = .ok () → Arg.HoldLeast args → (∀ t, .array t ∈ args → t.size ≤ maxTextureSide * maxTextureSide) →
        (s.attempt? k).isSome → (∃ found, (s.program k).2 = .ok found) → (s.run k args).2.2 = .error .overflow) ∧
      (∀ cause, (s.run k args).2.2 ≠ .error (.compilationFailed cause)) ∧
      ∀ cause, (s.run k args).2.2 ≠ .error (.executionFailed cause) := by
  intro s
  have sound := Session.after_sound device order strict capacity history
  refine ⟨?_, ?_⟩
  · intro body settings mode e
    simp only [s.compile_error_iff sound body settings mode, Kernel.make_error_iff]
  · intro k args mode faithful host
    cases checked : k.checkArgs args with
    | error refusal =>
      have refused : (s.run k args).2.2 = .error (.invalidArgument refusal) := by
        simp only [Session.run, checked]
      rw [refused]
      exact ⟨by simp, nofun, nofun, nofun, nofun, nofun⟩
    | ok =>
      have ends := s.run_eq_runHost sound k mode args faithful checked
      have kinds := s.run_error sound k mode args faithful checked
      refine ⟨?_, ?_, fun _ => ends, ?_, ?_, ?_⟩
      · intro cause
        refine ⟨fun failed => ?_, nofun⟩
        rcases kinds _ failed with same | ⟨_, same⟩ <;> cases same
      · intro _ more
        exact ends.resolve_right fun lost => more lost.2.1
      · rintro _ least small tries ⟨found, got⟩
        exact Session.run_lost sound tries got checked small least
      · intro cause failed
        rcases kinds _ failed with same | ⟨_, same⟩ <;> cases same
      · intro cause failed
        rcases kinds _ failed with same | ⟨_, same⟩ <;> cases same

-- The device is present and told to fail every launch; the answer is the host's all the same.
theorem pick_falls_back :
    let args : List Arg := [.array ⟨[2], .f32 #[⟨0x3f800000⟩, ⟨0x3dcccccd⟩]⟩, .scalar 1.5]
    let s := Session.after (some {}) .little true none [.faults { dispatch := true }]
    pickKernel.mode ≠ .gpu ∧ (∀ arg ∈ args, arg.Representable) ∧ pickKernel.checkArgs args = .ok () ∧
      (s.run pickKernel args).2.2 = (Host.run {} pickKernel.body pickKernel.types pickKernel.grid args).map
        Output.ofTensor := by
  intro args s
  have mode : pickKernel.mode ≠ .gpu := by decide
  have checked : pickKernel.checkArgs args = .ok () := by decide
  have faithful : ∀ arg ∈ args, arg.Representable := by
    intro arg member
    rcases List.mem_cons.mp member with rfl | later
    · exact fun i => rfl
    · cases List.mem_singleton.mp later
      show (Single.ofFloat 1.5).toFloat = 1.5
      decide
  have more : ¬ Arg.HoldLeast args := by
    rintro ⟨t, member, least⟩
    rcases List.mem_cons.mp member with same | later
    · cases same
      exact least
    · cases List.mem_singleton.mp later
  have transparent := (fallback_is_transparent (some {}) .little true none [.faults { dispatch := true }]).2
    pickKernel args mode faithful
  have result := transparent.2.1 checked more
  rw [pick_functions] at result
  exact ⟨mode, faithful, checked, result⟩

-- A 32-bit word holds the least integer and the host reads it, but the run that tries the device has no answer.
theorem least_integer_has_no_answer :
    let least : Tensor := ⟨[1], .i64 #[Int64.minValue]⟩
    let args : List Arg := [.array least, .scalar 0.0]
    let s := Session.after (some {}) .little false none []
    pickKernel.mode ≠ .gpu ∧ (∀ arg ∈ args, arg.Representable) ∧ pickKernel.checkArgs args = .ok () ∧
      (s.runHost pickKernel args).toOption.map Output.words = some #[⟨0xdf000000⟩] ∧
      (s.run pickKernel args).2.2 = .error .overflow := by
  intro least args s
  have faithful : ∀ arg ∈ args, arg.Representable := by
    intro arg member
    rcases List.mem_cons.mp member with rfl | later
    · intro i
      cases i with
      | zero => decide +kernel
      | succ i => simp [least, Elements.get?, Tensor.singles, Elements.singles]
    · cases List.mem_singleton.mp later
      show (Single.ofFloat 0.0).toFloat = 0.0
      decide
  have checked : pickKernel.checkArgs args = .ok () := by decide
  have host : (s.runHost pickKernel args).toOption.map Output.words = some #[⟨0xdf000000⟩] := by
    rw [Session.runHost, pick_functions]
    decide +kernel
  have sound : s.Sound := Session.new_sound (some {}) .little false none
  have present : s.device = some { hostOrder := some .little } := rfl
  obtain ⟨found, got⟩ := Session.program_healthy sound present rfl (k := pickKernel)
    (by rw [pick_functions]; decide +kernel)
  refine ⟨by decide, faithful, checked, host, Session.run_lost sound rfl got checked ?_ ?_⟩
  · intro t member
    rcases List.mem_cons.mp member with same | later
    · cases same
      decide
    · cases List.mem_singleton.mp later
  · exact ⟨least, List.mem_cons_self, Array.mem_singleton.mpr rfl⟩

end GridKernel
