import GridKernel.Proofs.Session.Effects
import GridKernel.Proofs.Session.Fallback
import GridKernel.Proofs.Session.Redefinition

namespace GridKernel

theorem Kernel.make_route (body : Body) (settings : Settings) (k : Kernel)
    (made : Kernel.make body settings = .ok k) : k.route = .pinned := by
  unfold Kernel.make at made
  obtain ⟨grid, _, rest⟩ := bind_eq_ok made
  obtain ⟨_, _, last⟩ := bind_eq_ok rest
  cases last
  rfl

namespace Session

-- The signature and device generation under which a compile fails on the device. A kernel for the
-- host alone does not try it.
def compileFailure? (s : Session) (k : Kernel) : Option (Signature × Option Nat) :=
  if k.mode = .cpu then none
  else
    match (s.program k).2 with
    | .ok _ => none
    | .error _ => some (k.signature s.registry, s.generation?)

-- The same for a run. One that overflows has not failed, it has not come to an end at all.
def runFailure? (s : Session) (k : Kernel) (args : List Arg) : Option (Signature × Option Nat) :=
  match k.checkArgs args, s.attempt? k, (s.runDevice k args).2 with
  | .ok (), some signature, .error e => if e = .overflow then none else some (signature, s.generation?)
  | _, _, _ => none

theorem program_generation (s : Session) (k : Kernel) : (s.program k).1.generation? = s.generation? := by
  cases present : s.device with
  | none => rw [program_absent present]
  | some device =>
    obtain ⟨cache, built, after, _⟩ := program_present present k
    rw [after]
    simp [generation?, present]

theorem runDevice_generation (s : Session) (k : Kernel) (args : List Arg) :
    (s.runDevice k args).1.generation? = s.generation? := by
  cases present : s.device with
  | none => rw [runDevice_absent present]
  | some device =>
    obtain ⟨cache, built, launches, uploaded, after, _⟩ := runDevice_present present k args
    rw [after]
    simp [generation?, present]

theorem run_attempted {s : Session} {k : Kernel} {args : List Arg} (checked : k.checkArgs args = .ok ())
    {signature : Signature} (tries : s.attempt? k = some signature) : (s.run k args).1 = (s.runDevice k args).1 := by
  simp only [run, checked, tries]
  generalize s.runDevice k args = ran
  obtain ⟨after, result⟩ := ran
  cases result with
  | ok out => rfl
  | error e =>
    dsimp only
    split <;> rfl

theorem run_parts (s : Session) (k : Kernel) (args : List Arg) :
    ((s.run k args).1 = s ∧ (s.run k args).2.1 = k ∧ s.runFailure? k args = none) ∨
    ∃ signature, k.checkArgs args = .ok () ∧ s.attempt? k = some signature ∧
      (s.run k args).1 = (s.runDevice k args).1 ∧
      ((∃ out, s.runDevice k args = ((s.runDevice k args).1, .ok out) ∧ s.runFailure? k args = none ∧
          (s.run k args).2 = ({ k with route := .device }, .ok out)) ∨
        ∃ e, s.runDevice k args = ((s.runDevice k args).1, .error e) ∧
          s.runFailure? k args = (if e = .overflow then none else some (signature, s.generation?)) ∧
          (s.run k args).2 = if fallsBack k e
            then ((s.runDevice k args).1.latch k signature, (s.runDevice k args).1.runHost k args)
            else (k, .error e)) := by
  cases checked : k.checkArgs args with
  | error cause => exact .inl (by simp [run, runFailure?, checked])
  | ok _ =>
    cases tries : s.attempt? k with
    | none => exact .inl (by simp [run, runFailure?, checked, tries])
    | some signature =>
      refine .inr ⟨signature, rfl, rfl, run_attempted checked tries, ?_⟩
      simp only [run, runFailure?, checked, tries]
      generalize s.runDevice k args = ran
      obtain ⟨after, result⟩ := ran
      cases result with
      | ok out => exact .inl ⟨out, rfl, rfl, rfl⟩
      | error e =>
        refine .inr ⟨e, rfl, rfl, ?_⟩
        dsimp only
        split <;> rfl

theorem attempt_signature {s : Session} {k : Kernel} {signature : Signature} (tries : s.attempt? k = some signature) :
    signature = k.signature s.registry := by
  unfold attempt? at tries
  split at tries
  · cases tries
  · exact (Option.some.inj tries).symm
  · dsimp only at tries
    split at tries
    · cases tries
    · exact (Option.some.inj tries).symm

theorem latch_parts (s : Session) (k : Kernel) (failed : Signature) :
    (s.generation? = none ∧ s.latch k failed = k) ∨
      ∃ generation, s.generation? = some generation ∧ s.latch k failed = { k with route := .fallback failed generation } := by
  unfold latch
  cases s.generation? with
  | none => exact .inl ⟨rfl, rfl⟩
  | some generation => exact .inr ⟨generation, rfl, rfl⟩

theorem compile_parts {s : Session} {body : Body} {settings : Settings} {k : Kernel}
    (compiled : (s.compile body settings).2 = .ok k) :
    ∃ made, Kernel.make body settings = .ok made ∧
      ((made.mode = .cpu ∧ s.compile body settings = (s, .ok made) ∧ k = made) ∨
        made.mode ≠ .cpu ∧ (s.compile body settings).1 = (s.program made).1 ∧
          ((∃ found, (s.program made).2 = .ok found ∧ k = { made with route := .device }) ∨
            ∃ e, (s.program made).2 = .error e ∧ fallsBack made e = true ∧
              k = (s.program made).1.latch made (made.signature s.registry))) := by
  revert compiled
  unfold compile
  cases Kernel.make body settings with
  | error cause => exact nofun
  | ok made =>
    intro compiled
    refine ⟨made, rfl, ?_⟩
    dsimp only at compiled ⊢
    by_cases host : made.mode = .cpu
    · rw [if_pos host] at compiled ⊢
      cases compiled
      exact .inl ⟨host, rfl, rfl⟩
    · rw [if_neg host] at compiled ⊢
      generalize s.program made = asked at compiled
      obtain ⟨after, outcome⟩ := asked
      cases outcome with
      | ok found =>
        cases compiled
        exact .inr ⟨host, rfl, .inl ⟨found, rfl, rfl⟩⟩
      | error e =>
        dsimp only at compiled ⊢
        split at compiled
        · rename_i falls
          cases compiled
          rw [if_pos falls]
          exact .inr ⟨host, rfl, .inr ⟨e, rfl, falls, rfl⟩⟩
        · cases compiled

theorem compile_generation (s : Session) (body : Body) (settings : Settings) :
    (s.compile body settings).1.generation? = s.generation? := by
  unfold compile
  split
  · rfl
  · rename_i made _
    have kept := s.program_generation made
    split
    · rfl
    · dsimp only
      generalize s.program made = asked at kept
      obtain ⟨after, outcome⟩ := asked
      cases outcome with
      | ok found => exact kept
      | error e =>
        dsimp only
        split <;> exact kept

theorem run_generation (s : Session) (k : Kernel) (args : List Arg) :
    (s.run k args).1.generation? = s.generation? := by
  rcases s.run_parts k args with ⟨same, _⟩ | ⟨_, _, _, after, _⟩
  · rw [same]
  · rw [after, s.runDevice_generation k args]

theorem shader_generation (s : Session) (k : Kernel) : (s.shader k).1.generation? = s.generation? := by
  have kept := s.program_generation k
  unfold shader
  split
  · rfl
  · generalize s.program k = asked at kept
    obtain ⟨after, outcome⟩ := asked
    cases outcome <;> exact kept

theorem copy_generation (s : Session) (b : Encoded) : (s.copy b).1.generation? = s.generation? := by
  unfold copy
  split
  · rfl
  · rename_i source _
    split
    · rfl
    · have first := s.compile_generation (copyBody b.shape.length) { dimensions := some b.shape.reverse }
      generalize s.compile (copyBody b.shape.length) { dimensions := some b.shape.reverse } = made at first
      obtain ⟨middle, outcome⟩ := made
      cases outcome with
      | error e => exact first
      | ok k =>
        have second := (middle.run_generation k [.array source]).trans first
        dsimp only
        generalize middle.run k [.array source] = result at second
        obtain ⟨after, _, out⟩ := result
        cases out <;> exact second

-- Time goes on: helpers are registered, and a device is restored but never taken away.
structure Onward (s t : Session) : Prop where
  registry : s.registry.Later t.registry
  absent : s.device = none → t.device = none
  generation : ∀ g, s.generation? = some g → ∃ h, t.generation? = some h ∧ g ≤ h

theorem Onward.still {s t : Session} (registry : t.registry = s.registry) (generation : t.generation? = s.generation?) :
    s.Onward t := by
  refine ⟨registry ▸ .refl, fun none => ?_, fun g some => ⟨g, generation.trans some, Nat.le_refl g⟩⟩
  simpa [generation?, none] using generation

theorem Onward.registered {s : Session} {d : Definition} {next : Registry} {how : Registration} (cache : ProgramCache)
    (accepted : s.registry.register d = (next, .ok how)) :
    s.Onward { s with registry := next, cache := cache } :=
  ⟨.register .refl accepted, id, fun g some => ⟨g, some, Nat.le_refl g⟩⟩

theorem Onward.mapDevice (s : Session) (change : Device → Device) (grows : ∀ d, d.generation ≤ (change d).generation) :
    s.Onward { s with device := s.device.map change } := by
  refine ⟨.refl, fun none => by simp [none], fun g some => ?_⟩
  obtain ⟨d, present, rfl⟩ := Option.map_eq_some_iff.mp some
  exact ⟨(change d).generation, by simp [generation?, present], grows d⟩

theorem registers_onward (s : Session) {d : Definition} {action : Action} (registers : action = .register d ∨ action = .define d) :
    s.Onward (s.step action) := by
  rcases s.step_registers registers with same | ⟨how, cache, stored, _, next⟩
  · rw [same]
    exact .still rfl rfl
  · rw [next]
    exact .registered cache stored

theorem step_onward (s : Session) (sound : s.Sound) (action : Action) : s.Onward (s.step action) := by
  cases action with
  | compile body settings => exact .still (s.compile_sound sound body settings).2 (s.compile_generation body settings)
  | run k args => exact .still (s.run_sound sound k args).2 (s.run_generation k args)
  | shader k => exact .still (s.shader_sound sound k).2 (s.shader_generation k)
  | copy b => exact .still (s.copy_sound sound b).2 (s.copy_generation b)
  | register d => exact s.registers_onward (.inl rfl)
  | define d => exact s.registers_onward (.inr rfl)
  | faults switches => exact .mapDevice s _ fun _ => Nat.le_refl _
  | lose => exact .mapDevice s _ fun _ => Nat.le_refl _
  | restore =>
    refine .mapDevice s _ fun d => ?_
    unfold Device.restore
    split
    · exact Nat.le_succ _
    · exact Nat.le_refl _

def pair (s : Session) (k : Kernel) : Signature × Option Nat := (k.signature s.registry, s.generation?)

-- A pair under which a kernel failed once: it is over, or the latch holds it, or the kernel does not
-- try the device at all.
structure Spent (s : Session) (k : Kernel) (failed : Signature × Option Nat) : Prop where
  past : ∃ r : Registry, r.Valid ∧ r.Later s.registry ∧ failed.1 = k.signature r
  reached : ∀ g, failed.2 = some g → ∃ h, s.generation? = some h ∧ g ≤ h
  barred : failed ≠ s.pair k ∨ k.route = .pinned ∨ ∃ g, failed.2 = some g ∧ k.route = .fallback failed.1 g

-- A failure under the pair of the moment is spent with its latch.
theorem Onward.spent {s t : Session} (onward : s.Onward t) (valid : s.registry.Valid) {k : Kernel}
    (held : k.route = .pinned ∨ ∃ g, s.generation? = some g ∧ k.route = .fallback (k.signature s.registry) g) :
    t.Spent k (s.pair k) :=
  ⟨⟨s.registry, valid, onward.registry, rfl⟩, onward.generation, .inr held⟩

theorem Spent.onward {s t : Session} {k : Kernel} {failed : Signature × Option Nat} (spent : s.Spent k failed)
    (onward : s.Onward t) : t.Spent k failed := by
  obtain ⟨r, valid, later, signature⟩ := spent.past
  refine ⟨⟨r, valid, later.trans onward.registry, signature⟩, ?_, ?_⟩
  · intro g some
    obtain ⟨h, here, below⟩ := spent.reached g some
    obtain ⟨i, there, up⟩ := onward.generation h here
    exact ⟨i, there, Nat.le_trans below up⟩
  · rcases spent.barred with apart | held
    · refine .inl fun back => apart ?_
      have signatures : k.signature r = k.signature t.registry := signature.symm.trans (congrArg Prod.fst back)
      have generations : failed.2 = t.generation? := congrArg Prod.snd back
      refine Prod.ext (signature.trans (Kernel.signature_between valid later onward.registry k signatures)) ?_
      change failed.2 = s.generation?
      cases now : s.generation? with
      | none =>
        have gone := onward.absent (Option.map_eq_none_iff.mp now)
        rw [generations, generation?, gone]
        rfl
      | some h =>
        obtain ⟨i, there, up⟩ := onward.generation h now
        obtain ⟨_, here, below⟩ := spent.reached i (generations.trans there)
        cases now.symm.trans here
        rw [generations, there, Nat.le_antisymm below up]
    · exact .inr held

theorem Spent.attempted {s : Session} {k : Kernel} {failed : Signature × Option Nat} (spent : s.Spent k failed)
    {signature : Signature} (tries : s.attempt? k = some signature) : failed ≠ s.pair k := by
  rcases spent.barred with apart | pinned | ⟨g, generation, latched⟩
  · exact apart
  · simp [attempt?, pinned] at tries
  · intro back
    have same : k.signature s.registry = failed.1 ∧ s.generation? = some g :=
      ⟨(congrArg Prod.fst back).symm, (congrArg Prod.snd back).symm.trans generation⟩
    simp [attempt?, latched, same] at tries

theorem generation?_eq_none (s : Session) : s.generation? = none ↔ s.device = none := Option.map_eq_none_iff

theorem Onward.absent_back {s t : Session} (onward : s.Onward t) (gone : t.device = none) : s.device = none := by
  rw [← generation?_eq_none] at gone ⊢
  cases now : s.generation? with
  | none => rfl
  | some g =>
    obtain ⟨h, there, _⟩ := onward.generation g now
    cases gone.symm.trans there

theorem mode_of_fallsBack {k : Kernel} {e : KernelError} (falls : fallsBack k e = true) : k.mode ≠ .gpu := by
  intro gpu
  simp [fallsBack, Mode.allowsFallback, gpu] at falls

-- The route that mode and session leave a kernel.
structure Placed (s : Session) (k : Kernel) : Prop where
  host : k.mode = .cpu ∨ s.device = none → k.route = .pinned
  device : k.mode = .gpu → k.route = .device

theorem Placed.onward {s t : Session} {k : Kernel} (placed : s.Placed k) (onward : s.Onward t) : t.Placed k :=
  ⟨fun host => placed.host (host.imp id onward.absent_back), placed.device⟩

theorem Placed.attempted {s : Session} {k : Kernel} {signature : Signature} (placed : s.Placed k)
    (tries : s.attempt? k = some signature) : ¬ (k.mode = .cpu ∨ s.device = none) := by
  intro host
  simp [attempt?, placed.host host] at tries

theorem run_placed {s : Session} {k : Kernel} (placed : s.Placed k) (args : List Arg) :
    (s.run k args).1.Placed (s.run k args).2.1 := by
  have device : (s.run k args).1.device = none ↔ s.device = none := by
    rw [← generation?_eq_none, ← generation?_eq_none, s.run_generation k args]
  rcases s.run_parts k args with ⟨same, kernel, _⟩ | ⟨signature, _, tries, after, outcome⟩
  · rw [same, kernel]
    exact placed
  · have free : ¬ (k.mode = .cpu ∨ (s.run k args).1.device = none) := by
      rw [device]
      exact placed.attempted tries
    rcases outcome with ⟨out, _, _, ended⟩ | ⟨e, _, _, ended⟩
    · rw [ended]
      exact ⟨fun host => (free host).elim, fun _ => rfl⟩
    · rw [ended]
      split
      · rename_i falls
        have mode : k.mode ≠ .gpu := mode_of_fallsBack falls
        rcases (s.runDevice k args).1.latch_parts k signature with ⟨_, kept⟩ | ⟨g, _, latched⟩
        · rw [kept]
          exact ⟨fun host => (free host).elim, placed.device⟩
        · rw [latched]
          exact ⟨fun host => (free host).elim, fun gpu => (mode gpu).elim⟩
      · exact ⟨fun host => (free host).elim, placed.device⟩

theorem compile_placed {s : Session} {body : Body} {settings : Settings} {k : Kernel}
    (compiled : (s.compile body settings).2 = .ok k) : (s.compile body settings).1.Placed k := by
  have device : (s.compile body settings).1.device = none ↔ s.device = none := by
    rw [← generation?_eq_none, ← generation?_eq_none, s.compile_generation body settings]
  obtain ⟨made, valid, ⟨cpu, _, rfl⟩ | ⟨notHost, after, outcome⟩⟩ := compile_parts compiled
  · exact ⟨fun _ => Kernel.make_route body settings k valid, fun gpu => by cases cpu.symm.trans gpu⟩
  · rcases outcome with ⟨found, got, rfl⟩ | ⟨e, _, falls, rfl⟩
    · have present : s.device ≠ none := by
        intro absent
        rw [program_absent absent] at got
        cases got
      exact ⟨fun host => (host.elim notHost fun gone => present (device.mp gone)).elim, fun _ => rfl⟩
    · have mode : made.mode ≠ .gpu := mode_of_fallsBack falls
      rcases (s.program made).1.latch_parts made (made.signature s.registry) with ⟨_, kept⟩ | ⟨g, now, latched⟩
      · rw [kept]
        exact ⟨fun _ => Kernel.make_route body settings made valid, fun gpu => (mode gpu).elim⟩
      · rw [latched]
        have present : (s.compile body settings).1.device ≠ none := by
          rw [after]
          intro gone
          cases ((generation?_eq_none _).mpr gone).symm.trans now
        exact ⟨fun host => (host.elim notHost present).elim, fun gpu => (mode gpu).elim⟩

theorem compile_spent {s : Session} (sound : s.Sound) {body : Body} {settings : Settings} {k : Kernel}
    (compiled : (s.compile body settings).2 = .ok k) {failed : Signature × Option Nat}
    (failure : s.compileFailure? k = some failed) : (s.compile body settings).1.Spent k failed := by
  have registry := (s.compile_sound sound body settings).2
  have generation := s.compile_generation body settings
  obtain ⟨made, valid, ⟨cpu, _, rfl⟩ | ⟨notHost, after, outcome⟩⟩ := compile_parts compiled
  · rw [compileFailure?, if_pos cpu] at failure
    cases failure
  · rcases outcome with ⟨found, got, rfl⟩ | ⟨e, refused, _, rfl⟩
    · have asked : s.program { made with route := .device } = s.program made := rfl
      rw [compileFailure?, if_neg notHost, asked, got] at failure
      cases failure
    · rw [after] at registry generation ⊢
      have onward : s.Onward (s.program made).1 := .still registry generation
      rcases (s.program made).1.latch_parts made (made.signature s.registry) with ⟨none, kept⟩ | ⟨g, now, latched⟩
      · rw [kept] at failure ⊢
        rw [compileFailure?, if_neg notHost, refused] at failure
        cases failure
        exact onward.spent sound.registry (.inl (Kernel.make_route body settings made valid))
      · rw [latched] at failure ⊢
        have asked (route : Route) : s.program { made with route := route } = s.program made := rfl
        rw [compileFailure?, if_neg notHost, asked, refused] at failure
        cases failure
        exact onward.spent (k := { made with route := .fallback (made.signature s.registry) g }) sound.registry
          (.inr ⟨g, generation.symm.trans now, rfl⟩)

theorem run_mode (s : Session) (k : Kernel) (args : List Arg) : (s.run k args).2.1.mode = k.mode := by
  rcases s.run_parts k args with ⟨_, kernel, _⟩ | ⟨signature, _, _, _, ⟨_, _, _, ended⟩ | ⟨e, _, _, ended⟩⟩
  · rw [kernel]
  · rw [ended]
  · rw [ended]
    split
    · rcases (s.runDevice k args).1.latch_parts k signature with ⟨_, kept⟩ | ⟨_, _, latched⟩
      · rw [kept]
      · rw [latched]
    · rfl

-- With arguments that fit, everything that fails on the device path may be answered by the host, if it ends.
theorem runDevice_fallsBack {s : Session} (sound : s.Sound) {k : Kernel} (mode : k.mode = .auto) {args : List Arg}
    (checked : k.checkArgs args = .ok ()) {e : KernelError} (failed : (s.runDevice k args).2 = .error e) :
    e = .overflow ∧ fallsBack k e = false ∨ e ≠ .overflow ∧ fallsBack k e = true := by
  rcases s.runDevice_parts sound k args ((k.checkArgs_fits args).mp checked) with ⟨cause, same, explained⟩ | ⟨_, ended, _⟩
  · cases failed.symm.trans same
    rcases explained.cases with allowed | ⟨rfl, _⟩
    · refine .inr ⟨?_, fallsBack_of k e (by rw [mode]; decide) allowed⟩
      rintro rfl
      cases allowed
    · exact .inl ⟨rfl, not_fallsBack_overflow k⟩
  · cases failed.symm.trans ended

theorem run_spent {s : Session} (sound : s.Sound) {k : Kernel} (placed : s.Placed k) (mode : k.mode = .auto)
    (args : List Arg) {failed : Signature × Option Nat}
    (known : s.runFailure? k args = some failed ∨ s.Spent k failed) :
    (s.run k args).1.Spent (s.run k args).2.1 failed := by
  have registry := (s.run_sound sound k args).2
  have generation := s.run_generation k args
  have onward : s.Onward (s.run k args).1 := .still registry generation
  rcases s.run_parts k args with ⟨same, kernel, nothing⟩ | ⟨signature, checked, tries, after, outcome⟩
  · rw [nothing] at known
    rw [same, kernel]
    exact known.resolve_left nofun
  · obtain rfl := attempt_signature tries
    -- The pair of this attempt is the one of the session; any other one is over by now.
    have current (k' : Kernel) (same : k'.signature s.registry = k.signature s.registry) :
        (s.run k args).1.pair k' = s.pair k := by
      rw [pair, pair, registry, generation, same]
    rcases outcome with ⟨out, _, nothing, ended⟩ | ⟨e, refused, failure, ended⟩
    · rw [nothing] at known
      have spent := known.resolve_left nofun
      obtain ⟨past, reached, _⟩ := spent.onward onward
      rw [ended]
      refine ⟨past, reached, .inl ?_⟩
      rw [current { k with route := .device } rfl]
      exact spent.attempted tries
    · rcases runDevice_fallsBack sound mode checked (congrArg Prod.snd refused) with ⟨lost, stuck⟩ | ⟨fine, falls⟩
      · rw [if_pos lost] at failure
        rw [failure] at known
        rw [ended, stuck]
        exact (known.resolve_left nofun).onward onward
      rw [if_neg fine] at failure
      rw [if_pos falls] at ended
      rw [after] at generation
      rcases (s.runDevice k args).1.latch_parts k (k.signature s.registry) with ⟨none, _⟩ | ⟨g, now, latched⟩
      · exact (placed.attempted tries (.inr ((generation?_eq_none s).mp (generation.symm.trans none)))).elim
      · rw [ended, latched]
        rcases known with same | spent
        · cases failure.symm.trans same
          exact onward.spent (k := { k with route := .fallback (k.signature s.registry) g }) sound.registry
            (.inr ⟨g, generation.symm.trans now, rfl⟩)
        · obtain ⟨past, reached, _⟩ := spent.onward onward
          refine ⟨past, reached, .inl ?_⟩
          rw [current { k with route := .fallback (k.signature s.registry) g } rfl]
          exact spent.attempted tries

-- The latch keeps a kernel from failing again under the same pair.
theorem runFailure_fresh {s : Session} {k : Kernel} {args : List Arg} {failed : Signature × Option Nat}
    (failure : s.runFailure? k args = some failed) : ¬ s.Spent k failed := by
  intro spent
  rcases s.run_parts k args with ⟨_, _, nothing⟩ | ⟨signature, _, tries, _, ⟨_, _, nothing, _⟩ | ⟨e, _, noted, _⟩⟩
  · cases nothing.symm.trans failure
  · cases nothing.symm.trans failure
  · rw [noted] at failure
    split at failure
    · cases failure
    · cases failure
      obtain rfl := attempt_signature tries
      exact spent.attempted tries rfl

end Session

-- The kernels of a session, numbered as they were compiled, and all attempts on the device that
-- failed: whose they were, and under which signature and device generation.
structure Ledger where
  session : Session
  kernels : List Kernel
  failures : List (Nat × Signature × Option Nat)

-- Something is compiled, a kernel is run, or anything else happens to the session, runs of kernels
-- that are kept elsewhere included.
inductive Turn where
  | compile (body : Body) (settings : Settings)
  | run (number : Nat) (args : List Arg)
  | other (action : Session.Action)

namespace Ledger

def noted (number : Nat) (failures : List (Nat × Signature × Option Nat)) :
    Option (Signature × Option Nat) → List (Nat × Signature × Option Nat)
  | none => failures
  | some failed => (number, failed) :: failures

def step (l : Ledger) : Turn → Ledger
  | .compile body settings =>
    match l.session.compile body settings with
    | (after, .error _) => { l with session := after }
    | (after, .ok k) =>
      ⟨after, l.kernels ++ [k], noted l.kernels.length l.failures (l.session.compileFailure? k)⟩
  | .run number args =>
    match l.kernels[number]? with
    | none => l
    | some k =>
      ⟨(l.session.run k args).1, l.kernels.set number (l.session.run k args).2.1,
        noted number l.failures (l.session.runFailure? k args)⟩
  | .other action => { l with session := l.session.step action }

def after (device : Option Device) (order : ByteOrder) (strict : Bool) (capacity : Option Nat)
    (turns : List Turn) : Ledger :=
  turns.foldl step ⟨Session.new device order strict capacity Shader.generate, [], []⟩

structure Kept (l : Ledger) : Prop where
  sound : l.session.Sound
  placed : ∀ k ∈ l.kernels, l.session.Placed k
  numbered : ∀ n failed, (n, failed) ∈ l.failures → n < l.kernels.length
  spent : ∀ n k failed, l.kernels[n]? = some k → k.mode = .auto → (n, failed) ∈ l.failures → l.session.Spent k failed
  once : ∀ n k failed, l.kernels[n]? = some k → k.mode = .auto → l.failures.count (n, failed) ≤ 1

theorem mem_noted (n m : Nat) (failures : List (Nat × Signature × Option Nat)) (failure : Option (Signature × Option Nat))
    (failed : Signature × Option Nat) :
    (m, failed) ∈ noted n failures failure ↔ m = n ∧ failure = some failed ∨ (m, failed) ∈ failures := by
  cases failure with
  | none => simp [noted]
  | some new => simp [noted, eq_comm]

theorem count_noted_other {n m : Nat} (apart : m ≠ n) (failures : List (Nat × Signature × Option Nat))
    (failure : Option (Signature × Option Nat)) (failed : Signature × Option Nat) :
    (noted n failures failure).count (m, failed) = failures.count (m, failed) := by
  cases failure with
  | none => rfl
  | some new =>
    refine List.count_cons_of_ne ?_
    intro same
    exact apart (congrArg Prod.fst same).symm

theorem count_noted_self {n : Nat} {failures : List (Nat × Signature × Option Nat)}
    {failure : Option (Signature × Option Nat)} (fresh : ∀ new, failure = some new → (n, new) ∉ failures)
    (once : ∀ failed, failures.count (n, failed) ≤ 1) (failed : Signature × Option Nat) :
    (noted n failures failure).count (n, failed) ≤ 1 := by
  cases failure with
  | none => exact once failed
  | some new =>
    by_cases same : new = failed
    · subst same
      rw [noted, List.count_cons_self, List.count_eq_zero_of_not_mem (fresh new rfl)]
    · rw [noted, List.count_cons_of_ne]
      · exact once failed
      · intro equal
        exact same (congrArg Prod.snd equal)

theorem Kept.onward {l : Ledger} (kept : l.Kept) {t : Session} (sound : t.Sound) (onward : l.session.Onward t) :
    Kept { l with session := t } := by
  refine ⟨sound, fun k member => (kept.placed k member).onward onward, kept.numbered, ?_, kept.once⟩
  intro n k failed here auto member
  exact (kept.spent n k failed here auto member).onward onward

-- The new kernel has the next number, under which nothing was noted yet.
theorem Kept.compiled {l : Ledger} (kept : l.Kept) {body : Body} {settings : Settings} {k : Kernel}
    (compiled : (l.session.compile body settings).2 = .ok k) :
    Kept ⟨(l.session.compile body settings).1, l.kernels ++ [k],
      noted l.kernels.length l.failures (l.session.compileFailure? k)⟩ := by
  obtain ⟨sound, registry⟩ := l.session.compile_sound kept.sound body settings
  have generation := l.session.compile_generation body settings
  have onward : l.session.Onward (l.session.compile body settings).1 := .still registry generation
  have fresh (failed : Signature × Option Nat) : (l.kernels.length, failed) ∉ l.failures := fun old =>
    Nat.lt_irrefl _ (kept.numbered _ _ old)
  refine ⟨sound, ?_, ?_, ?_, ?_⟩
  · intro other member
    rcases List.mem_append.mp member with old | new
    · exact (kept.placed other old).onward onward
    · cases List.mem_singleton.mp new
      exact Session.compile_placed compiled
  · intro n failed member
    rw [List.length_append, List.length_singleton]
    rcases (mem_noted _ _ _ _ _).mp member with ⟨rfl, _⟩ | old
    · exact Nat.lt_succ_self _
    · exact Nat.lt_succ_of_lt (kept.numbered n failed old)
  · intro n other failed here auto member
    rcases (mem_noted _ _ _ _ _).mp member with ⟨rfl, failure⟩ | old
    · rw [List.getElem?_concat_length] at here
      cases here
      exact Session.compile_spent kept.sound compiled failure
    · rw [List.getElem?_append_left (kept.numbered n failed old)] at here
      exact (kept.spent n other failed here auto old).onward onward
  · intro n other failed here auto
    by_cases last : n = l.kernels.length
    · subst last
      refine count_noted_self (fun new _ => fresh new) (fun old => ?_) failed
      rw [List.count_eq_zero_of_not_mem (fresh old)]
      exact Nat.zero_le 1
    · rw [count_noted_other last]
      have earlier : n < l.kernels.length := by
        have bound := (List.getElem?_eq_some_iff.mp here).1
        rw [List.length_append, List.length_singleton] at bound
        omega
      rw [List.getElem?_append_left earlier] at here
      exact kept.once n other failed here auto

theorem Kept.ran {l : Ledger} (kept : l.Kept) {n : Nat} {k : Kernel} (here : l.kernels[n]? = some k) (args : List Arg) :
    Kept ⟨(l.session.run k args).1, l.kernels.set n (l.session.run k args).2.1,
      noted n l.failures (l.session.runFailure? k args)⟩ := by
  obtain ⟨sound, registry⟩ := l.session.run_sound kept.sound k args
  have onward : l.session.Onward (l.session.run k args).1 := .still registry (l.session.run_generation k args)
  have bound : n < l.kernels.length := (List.getElem?_eq_some_iff.mp here).1
  have member : k ∈ l.kernels := List.mem_of_getElem? here
  refine ⟨sound, ?_, ?_, ?_, ?_⟩
  · intro other among
    rcases List.mem_or_eq_of_mem_set among with old | rfl
    · exact (kept.placed other old).onward onward
    · exact Session.run_placed (kept.placed k member) args
  · intro m failed noted
    rw [List.length_set]
    rcases (mem_noted _ _ _ _ _).mp noted with ⟨rfl, _⟩ | old
    · exact bound
    · exact kept.numbered m failed old
  · intro m other failed there auto noted
    by_cases same : m = n
    · subst same
      rw [List.getElem?_set_self bound] at there
      cases there
      have mode : k.mode = .auto := (l.session.run_mode k args).symm.trans auto
      refine Session.run_spent kept.sound (kept.placed k member) mode args ?_
      rcases (mem_noted _ _ _ _ _).mp noted with ⟨_, failure⟩ | old
      · exact .inl failure
      · exact .inr (kept.spent m k failed here mode old)
    · rw [List.getElem?_set_ne (Ne.symm same)] at there
      rcases (mem_noted _ _ _ _ _).mp noted with ⟨wrong, _⟩ | old
      · exact absurd wrong same
      · exact (kept.spent m other failed there auto old).onward onward
  · intro m other failed there auto
    by_cases same : m = n
    · subst same
      rw [List.getElem?_set_self bound] at there
      cases there
      have mode : k.mode = .auto := (l.session.run_mode k args).symm.trans auto
      refine count_noted_self (fun new failure old => ?_) (fun old => kept.once m k old here mode) failed
      exact Session.runFailure_fresh failure (kept.spent m k new here mode old)
    · rw [List.getElem?_set_ne (Ne.symm same)] at there
      rw [count_noted_other same]
      exact kept.once m other failed there auto

theorem step_kept {l : Ledger} (kept : l.Kept) (turn : Turn) : (l.step turn).Kept := by
  cases turn with
  | other action => exact kept.onward (l.session.step_sound action kept.sound) (l.session.step_onward kept.sound action)
  | run n args =>
    unfold step
    dsimp only
    cases here : l.kernels[n]? with
    | none => exact kept
    | some k => exact kept.ran here args
  | compile body settings =>
    have sound := l.session.compile_sound kept.sound body settings
    have onward : l.session.Onward (l.session.compile body settings).1 :=
      .still sound.2 (l.session.compile_generation body settings)
    have compiled : ∀ k, (l.session.compile body settings).2 = .ok k → Kept _ := fun k => kept.compiled
    unfold step
    dsimp only
    generalize l.session.compile body settings = made at sound onward compiled
    obtain ⟨after, outcome⟩ := made
    cases outcome with
    | ok k => exact compiled k rfl
    | error e => exact kept.onward sound.1 onward

theorem after_kept (device : Option Device) (order : ByteOrder) (strict : Bool) (capacity : Option Nat)
    (turns : List Turn) : (after device order strict capacity turns).Kept := by
  have run : ∀ (turns : List Turn) (l : Ledger), l.Kept → (turns.foldl step l).Kept := by
    intro turns
    induction turns with
    | nil => exact fun _ kept => kept
    | cons turn rest ih => exact fun l kept => ih _ (step_kept kept turn)
  refine run turns _ ⟨Session.new_sound device order strict capacity, ?_, ?_, ?_, ?_⟩ <;> simp

end Ledger

namespace Session

theorem program_found {s : Session} (sound : s.Sound) {device : Device} (present : s.device = some device) {k : Kernel}
    {found : CachedProgram Signature Compiled} (got : (s.program k).2 = .ok found) :
    (s.cache.get? (k.signature s.registry) = some found ∧ (s.program k).1.device = some device) ∨
      s.cache.get? (k.signature s.registry) = none ∧
        (s.program k).1.device = some { device with built := device.built + 1 } := by
  have keyed : k.signatureOf (k.functions s.registry) = k.signature s.registry := rfl
  unfold program at got ⊢
  rw [present] at got ⊢
  simp only [keyed, Cache.lookup, Cache.get?] at got ⊢
  cases slot : s.cache.slot? (k.signature s.registry) with
  | none =>
    rw [slot] at got
    dsimp only at got ⊢
    rcases s.build_device device k (k.functions s.registry) with ⟨e, failed⟩ | ⟨program, made⟩
    · rw [failed] at got
      cases got
    · rw [made]
      exact .inr ⟨rfl, rfl⟩
  | some held =>
    obtain ⟨program, ready, _⟩ := sound.cache _ (Cache.slot?_mem s.cache _ held slot)
    cases ready
    rw [slot] at got
    cases got
    exact .inl ⟨rfl, rfl⟩

theorem compile_untouched {s : Session} {body : Body} {settings : Settings}
    (host : settings.mode = .cpu ∨ s.device = none) : (s.compile body settings).1 = s := by
  unfold compile
  cases valid : Kernel.make body settings with
  | error cause => rfl
  | ok made =>
    rw [← Kernel.make_mode body settings made valid] at host
    dsimp only
    split
    · rfl
    · rename_i device
      rw [program_absent (host.resolve_left device)]
      dsimp only
      split <;> rfl

theorem run_pinned {s : Session} {k : Kernel} (pinned : k.route = .pinned) (args : List Arg) :
    (s.run k args).1 = s := by
  rcases s.run_parts k args with ⟨same, _⟩ | ⟨_, _, tries, _⟩
  · exact same
  · simp [attempt?, pinned] at tries

theorem run_latched {s : Session} {k : Kernel} {args : List Arg} (checked : k.checkArgs args = .ok ())
    (still : s.attempt? k = none) : s.run k args = (s, k, s.runHost k args) := by
  simp only [run, checked, still]

theorem run_requests {s : Session} {k : Kernel} {args : List Arg} (checked : k.checkArgs args = .ok ())
    {signature : Signature} (tries : s.attempt? k = some signature) (attached : s.device ≠ none) :
    (s.run k args).1 = (s.runDevice k args).1 ∧
      (s.run k args).1.cache.stats.requests = s.cache.stats.requests + 1 := by
  have same := run_attempted checked tries
  obtain ⟨device, present⟩ := Option.ne_none_iff_exists'.mp attached
  obtain ⟨cache, _, _, _, after, requests, _⟩ := runDevice_present present k args
  refine ⟨same, ?_⟩
  rw [same, after]
  exact requests

theorem run_deviceOnly {s : Session} {k : Kernel} (mode : k.mode = .gpu) (route : k.route = .device) {args : List Arg}
    (checked : k.checkArgs args = .ok ()) : s.run k args = ((s.runDevice k args).1, k, (s.runDevice k args).2) := by
  have tries : s.attempt? k = some (k.signature s.registry) := by simp only [attempt?, route]
  have same : { k with route := .device } = k := by rw [← route]
  simp only [run, checked, tries]
  generalize s.runDevice k args = ran
  obtain ⟨after, result⟩ := ran
  cases result with
  | ok out => simp only [same]
  | error e => simp [fallsBack, Mode.allowsFallback, mode]

theorem runDevice_dispatches {s : Session} {k : Kernel} {args : List Arg} {out : Output}
    (ran : (s.runDevice k args).2 = .ok out) :
    ∃ d e, s.device = some d ∧ (s.runDevice k args).1.device = some e ∧ e.dispatches = d.dispatches + 1 := by
  cases present : s.device with
  | none =>
    rw [runDevice_absent present] at ran
    cases ran
  | some d =>
    obtain ⟨cache, built, launches, uploaded, after, _, result⟩ := runDevice_present present k args
    cases result out ran
    exact ⟨d, _, rfl, by rw [after], rfl⟩

end Session

theorem Session.program_lost {s : Session} (generator : s.synthesize = Shader.generate) {device : Device}
    (present : s.device = some device) (lost : device.lost = true) {k : Kernel}
    (absent : s.cache.slot? (k.signature s.registry) = none) :
    ∃ cache cause, s.program k = ({ s with cache := cache }, .error (.compilationFailed cause)) := by
  have keyed : k.signatureOf (k.functions s.registry) = k.signature s.registry := rfl
  have failed : ∃ cause, s.build device k (k.functions s.registry) = (device, .error (.compilationFailed cause)) := by
    unfold Session.build
    rw [generator, Shader.generate]
    cases Shader.synthesize (k.request (k.functions s.registry)) with
    | error cause => exact ⟨cause, rfl⟩
    | ok source => exact ⟨.contextLost, by simp [Except.mapError, Device.compile, lost]⟩
  obtain ⟨cause, failed⟩ := failed
  unfold Session.program
  rw [present]
  simp only [keyed, Cache.lookup, absent, failed]
  exact ⟨_, cause, rfl⟩

theorem Session.compile_lost {s : Session} (generator : s.synthesize = Shader.generate) {device : Device}
    (present : s.device = some device) (lost : device.lost = true) {body : Body} {settings : Settings} {made : Kernel}
    (valid : Kernel.make body settings = .ok made) (mode : made.mode = .auto)
    (absent : s.cache.slot? (made.signature s.registry) = none) :
    ∃ cache, s.compile body settings = ({ s with cache := cache },
      .ok { made with route := .fallback (made.signature s.registry) device.generation }) := by
  obtain ⟨cache, cause, failed⟩ := Session.program_lost generator present lost absent
  refine ⟨cache, ?_⟩
  have falls : Session.fallsBack made (.compilationFailed cause) = true := by
    simp [Session.fallsBack, mode, Mode.allowsFallback, KernelError.allowsFallback]
  simp [Session.compile, valid, mode, failed, falls, Session.latch, Session.generation?, present]

theorem kernels_keep_to_their_routes (device : Option Device) (order : ByteOrder) (strict : Bool)
    (capacity : Option Nat) (turns : List Turn) :
    let l := Ledger.after device order strict capacity turns
    let s := l.session
    -- An automatic kernel fails on the device at most once for a signature and a device generation.
    (∀ (n : Nat) k failed, l.kernels[n]? = some k → k.mode = .auto → l.failures.count (n, failed) ≤ 1) ∧
    -- A run that finds its latch unchanged goes to the host and touches nothing; one that finds it
    -- changed asks the cache for its program.
    (∀ (n : Nat) k args failed generation, l.kernels[n]? = some k → k.checkArgs args = .ok () →
      k.route = .fallback failed generation →
      (k.signature s.registry = failed ∧ s.generation? = some generation → s.run k args = (s, k, s.runHost k args)) ∧
      (¬ (k.signature s.registry = failed ∧ s.generation? = some generation) →
        (s.run k args).1 = (s.runDevice k args).1 ∧
        (s.run k args).1.cache.stats.requests = s.cache.stats.requests + 1)) ∧
    -- A kernel for the device alone is compiled only with a program that was found or built.
    (∀ body settings k, settings.mode = .gpu → (s.compile body settings).2 = .ok k →
      ∃ d found, s.device = some d ∧ (s.program k).2 = .ok found ∧
        (s.cache.get? (k.signature s.registry) = some found ∧ (s.compile body settings).1.device = some d ∨
          s.cache.get? (k.signature s.registry) = none ∧
            (s.compile body settings).1.device = some { d with built := d.built + 1 })) ∧
    -- It stays on the device, whatever becomes of its runs, and a result of it is one launch.
    (∀ (n : Nat) k, l.kernels[n]? = some k → k.mode = .gpu → k.route = .device ∧
      ∀ args, k.checkArgs args = .ok () →
        s.run k args = ((s.runDevice k args).1, k, (s.runDevice k args).2) ∧
        ∀ out, (s.run k args).2.2 = .ok out → ∃ d e, s.device = some d ∧ (s.run k args).1.device = some e ∧
          e.dispatches = d.dispatches + 1) ∧
    -- A kernel for the host alone touches neither cache nor device, and without a device no kernel does.
    (∀ body settings, settings.mode = .cpu ∨ s.device = none → (s.compile body settings).1 = s) ∧
    ∀ (n : Nat) k args, l.kernels[n]? = some k → k.mode = .cpu ∨ s.device = none → (s.run k args).1 = s := by
  intro l s
  have kept := Ledger.after_kept device order strict capacity turns
  have placed (n : Nat) (k : Kernel) (here : l.kernels[n]? = some k) : s.Placed k :=
    kept.placed k (List.mem_of_getElem? here)
  refine ⟨kept.once, ?_, ?_, ?_, fun body settings host => Session.compile_untouched host, ?_⟩
  · intro n k args failed generation here checked latched
    refine ⟨fun same => ?_, fun changed => ?_⟩
    · exact Session.run_latched checked (by simp only [Session.attempt?, latched, same, and_self, if_true])
    · have tries : s.attempt? k = some (k.signature s.registry) := by
        simp only [Session.attempt?, latched, if_neg changed]
      exact Session.run_requests checked tries fun none => (placed n k here).attempted tries (.inr none)
  · intro body settings k mode compiled
    obtain ⟨made, valid, ⟨cpu, _, _⟩ | ⟨_, after, outcome⟩⟩ := Session.compile_parts compiled
    · cases (Kernel.make_mode body settings made valid).symm.trans cpu ▸ mode
    · have gpu : made.mode = .gpu := (Kernel.make_mode body settings made valid).trans mode
      rcases outcome with ⟨found, got, rfl⟩ | ⟨e, _, falls, _⟩
      · cases present : s.device with
        | none =>
          rw [Session.program_absent present] at got
          cases got
        | some d =>
          rw [after]
          exact ⟨d, found, rfl, got, Session.program_found kept.sound present got⟩
      · exact absurd gpu (Session.mode_of_fallsBack falls)
  · intro n k here mode
    have route := (placed n k here).device mode
    refine ⟨route, fun args checked => ?_⟩
    have alone := Session.run_deviceOnly (s := s) mode route checked
    refine ⟨alone, fun out ended => ?_⟩
    rw [alone] at ended ⊢
    exact Session.runDevice_dispatches ended
  · intro n k args here host
    exact Session.run_pinned ((placed n k here).host host) args

-- Compiled while the device is lost, a kernel stays on the host until the device is restored.
theorem pick_waits_for_device :
    let lost := Ledger.after (some { lost := true }) .little false none [.compile pickKernel.body { dimensions := some [1] }]
    let restored := Ledger.after (some { lost := true }) .little false none
      [.compile pickKernel.body { dimensions := some [1] }, .other .restore]
    let k := { pickKernel with route := .fallback (pickKernel.signature (Registry.new false)) 0 }
    lost.kernels[0]? = some k ∧ restored.kernels[0]? = some k ∧
      lost.failures.count (0, pickKernel.signature (Registry.new false), some 0) = 1 ∧
      lost.session.run k pickArgs = (lost.session, k, lost.session.runHost k pickArgs) ∧
      (restored.session.run k pickArgs).1.cache.stats.requests = restored.session.cache.stats.requests + 1 := by
  intro lost restored k
  have checked : k.checkArgs pickArgs = .ok () := by decide
  let start := Session.new (some { lost := true }) .little false none Shader.generate
  have made : Kernel.make pickKernel.body { dimensions := some [1] } = .ok { pickKernel with route := .pinned } := rfl
  obtain ⟨cache, compiled⟩ := Session.compile_lost (s := start) rfl rfl rfl made rfl rfl
  obtain ⟨_, cause, failed⟩ := Session.program_lost (s := start) (k := k) rfl rfl rfl rfl
  have noted : start.compileFailure? k = some (pickKernel.signature (Registry.new false), some 0) := by
    unfold Session.compileFailure?
    rw [failed]
    rfl
  have first : lost = ⟨{ start with cache := cache }, [k], [(0, pickKernel.signature (Registry.new false), some 0)]⟩ := by
    simp only [lost, Ledger.after, List.foldl_cons, List.foldl_nil, Ledger.step]
    rw [compiled]
    exact congrArg (Ledger.mk _ _) (congrArg (Ledger.noted 0 []) noted)
  have second : restored = { lost with session := lost.session.step .restore } := rfl
  have here : lost.kernels[0]? = some k := by rw [first]; rfl
  have later : restored.kernels[0]? = some k := by rw [second, first]; rfl
  refine ⟨here, later, ?_, ?_, ?_⟩
  · rw [first]
    exact List.count_singleton_self
  · refine ((kernels_keep_to_their_routes _ _ _ _ _).2.1 0 k pickArgs _ _ here checked rfl).1 ?_
    rw [show Ledger.after _ _ _ _ _ = _ from first]
    exact ⟨rfl, rfl⟩
  · refine (((kernels_keep_to_their_routes _ _ _ _ _).2.1 0 k pickArgs _ _ later checked rfl).2 ?_).2
    rw [show Ledger.after _ _ _ _ _ = _ from second, first]
    exact fun same => absurd (show some 1 = some 0 from same.2) (by decide)

end GridKernel
