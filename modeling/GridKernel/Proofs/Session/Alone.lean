import GridKernel.Proofs.Session.Crowd

namespace GridKernel.Crowd

inductive Alone : Nat → Turn → Turn → Prop where
  | done {turn : Turn} : Alone 0 turn turn
  | step {n : Nat} {s : Session} {kernels : List Kernel} {phase : Phase} {last : Turn}
      (rest : Alone n (next s kernels phase) last) : Alone (n + 1) (s, kernels, phase) last

theorem Alone.trans {m n : Nat} {first second third : Turn} (one : Alone m first second) (two : Alone n second third) :
    Alone (m + n) first third := by
  induction one with
  | done =>
    rw [Nat.zero_add]
    exact two
  | step _ ih =>
    rw [Nat.succ_add]
    exact .step (ih two)

theorem Alone.once {s : Session} {kernels : List Kernel} {phase : Phase} {turn : Turn}
    (made : next s kernels phase = turn) : Alone 1 (s, kernels, phase) turn := by
  rw [← made]
  exact .step .done

theorem take_take (w : Crowd) (t : Nat) (first second : Turn) : (w.take t first).take t second = w.take t second := by
  unfold take
  congr 1
  funext other
  by_cases same : other = t <;> simp [same]

theorem take_same (w : Crowd) (t : Nat) : w.take t (w.session, w.kernels, w.callers t) = w := by
  unfold take
  congr 1
  funext other
  by_cases same : other = t <;> simp [same]

theorem Alone.after {n : Nat} {first last : Turn} (alone : Alone n first last) (w : Crowd) (t : Nat) :
    (w.take t first).after (List.replicate n (.go t)) = w.take t last := by
  induction alone with
  | done => rfl
  | @step n s kernels phase last rest ih =>
    have first : (w.take t (s, kernels, phase)).act (.go t) = w.take t (next s kernels phase) := by
      simp only [act, take_self]
      exact w.take_take t _ _
    rw [List.replicate_succ', after_append, Crowd.after, Crowd.after, first, ih]

theorem go_alone {w : Crowd} {t n : Nat} {last : Turn} (alone : Alone n (w.session, w.kernels, w.callers t) last) :
    w.after (List.replicate n (.go t)) = w.take t last := by
  have steps := alone.after w t
  rwa [take_same] at steps

theorem hold_alone {s : Session} (present : s.device.isSome) (kernels : List Kernel) (aim : Aim) :
    Alone 1 (s, kernels, .wants aim) (s, kernels, .holds ⟨aim, aim.kernel.functions s.registry⟩) :=
  .once (by simp [next, present])

theorem lead_alone {s : Session} {device : Device} (present : s.device = some device) (kernels : List Kernel)
    {errand : Errand} {flight : Nat} (leads : (s.cache.lookup errand.key).2 = .leads flight) :
    let ended := s.build device errand.aim.kernel errand.functions
    Alone 4 (s, kernels, .holds errand) ({ s with
      cache := (s.cache.lookup errand.key).1.finish errand.key flight ended.2
      device := some ended.1 }, kernels, .answered errand (some ended.2)) := by
  intro ended
  have builds : next s kernels (.holds errand) =
      ({ s with cache := (s.cache.lookup errand.key).1 }, kernels, .builds errand flight) := by
    dsimp only [next]
    rw [leads]
    rfl
  have built : next { s with cache := (s.cache.lookup errand.key).1 } kernels (.builds errand flight) =
      ({ s with cache := (s.cache.lookup errand.key).1, device := some ended.1 }, kernels,
        .built errand flight (some ended.2)) := by
    dsimp only [next]
    rw [present]
    rfl
  exact (Alone.once builds).trans ((Alone.once built).trans (.step (.step .done)))

-- While nobody else is building, a caller is served at once or leads.
theorem program_alone {s : Session} (sound : s.Sound) (kernels : List Kernel) (aim : Aim)
    (tries : s.device.isSome ∨ aim.absent = .compilationFailed .noContext) :
    (∃ e n, (s.program aim.kernel).2 = .error e ∧
      Alone n (s, kernels, .wants aim) ((s.program aim.kernel).1, kernels, .refused aim e)) ∨
    ∃ found n, (s.program aim.kernel).2 = .ok found ∧
      Alone n (s, kernels, .wants aim) ((s.program aim.kernel).1, kernels,
        .answered ⟨aim, aim.kernel.functions s.registry⟩ (some (.ok found))) := by
  cases present : s.device with
  | none =>
    rw [present] at tries
    rw [Session.program_absent present]
    exact .inl ⟨_, 1, rfl, .once (by simp [next, present, tries.resolve_left nofun])⟩
  | some device =>
    have holds := hold_alone (s := s) (by rw [present]; rfl) kernels aim
    have keyed : aim.kernel.signatureOf (aim.kernel.functions s.registry) =
      Errand.key ⟨aim, aim.kernel.functions s.registry⟩ := rfl
    unfold Session.program
    rw [present]
    dsimp only
    rw [keyed]
    generalize asks : (⟨aim, aim.kernel.functions s.registry⟩ : Errand) = errand at holds
    cases looked : s.cache.lookup errand.key with
    | mk cache what =>
      have first : (s.cache.lookup errand.key).1 = cache := by rw [looked]
      have second : (s.cache.lookup errand.key).2 = what := by rw [looked]
      cases what with
      | hit found =>
        refine .inr ⟨found, _, rfl, holds.trans (.once ?_)⟩
        dsimp only [next]
        rw [first, second, present]
        rfl
      | joined flight =>
        obtain ⟨_, ready, _⟩ := sound.cache _ (Cache.lookup_joined second)
        cases ready
      | leads flight =>
        have leader := lead_alone present kernels second
        subst asks
        rw [first] at leader
        dsimp only at leader ⊢
        generalize s.build device aim.kernel (aim.kernel.functions s.registry) = ended at leader ⊢
        obtain ⟨after, outcome⟩ := ended
        cases outcome with
        | error e => exact .inl ⟨e, _, rfl, holds.trans (leader.trans (.step .done))⟩
        | ok found => exact .inr ⟨found, _, rfl, holds.trans leader⟩

theorem runDevice_alone {s : Session} (sound : s.Sound) (kernels : List Kernel) (call : Call) (route : Route)
    (signature : Signature) :
    let ran := s.runDevice call.kernel call.args
    (∃ e n, ran.2 = .error e ∧ Alone n (s, kernels, .wants (.run call route signature))
      (ran.1, kernels, .refused (.run call route signature) e)) ∨
    ∃ out n, ran.2 = .ok out ∧ Alone n (s, kernels, .wants (.run call route signature))
      (ran.1, kernels, if route = .device then .ran call (.ok out) else .recovers call out) := by
  unfold Session.runDevice
  cases present : s.device with
  | none => exact .inl ⟨_, 1, rfl, .once (by simp [next, present, Aim.absent])⟩
  | some device =>
    have asked := program_alone sound kernels (.run call route signature) (.inl (by rw [present]; rfl))
    dsimp only [Aim.kernel] at asked ⊢
    generalize s.program call.kernel = got at asked
    obtain ⟨after, outcome⟩ := got
    rcases asked with ⟨e, n, failed, alone⟩ | ⟨found, n, made, alone⟩
    · cases failed
      exact .inl ⟨e, n, rfl, alone⟩
    · cases made
      dsimp only at alone ⊢
      have served := alone.trans (.once rfl)
      dsimp only [next, Crowd.served] at served
      cases present : after.device with
      | none =>
        rw [present] at served
        exact .inl ⟨_, _, rfl, served⟩
      | some device =>
        rw [present] at served
        dsimp only at served ⊢
        generalize after.execute device call.kernel found.artifact.program call.args = ran at served ⊢
        obtain ⟨last, result⟩ := ran
        cases result with
        | error e => exact .inl ⟨e, _, rfl, served⟩
        | ok out => exact .inr ⟨out, _, rfl, served⟩

theorem attempt_alone (s : Session) (kernels : List Kernel) (call : Call)
    (checked : call.kernel.checkArgs call.args = .ok ()) :
    ∃ n, Alone n (s, kernels, called call) (s, kernels, (s.attempt? call.kernel).elim (.host call) fun signature =>
      .wants (.run call call.kernel.route signature)) := by
  unfold called Session.attempt?
  rw [checked]
  dsimp only
  cases call.kernel.route with
  | pinned => exact ⟨0, .done⟩
  | device => exact ⟨1, .step .done⟩
  | fallback failed generation =>
    by_cases key : call.kernel.signature s.registry = failed
    · have compares : next s kernels (.signs call (.fallback failed generation)) =
          (s, kernels, .compares call (.fallback failed generation) (call.kernel.signature s.registry) generation) := by
        simp [next, compared, key]
      refine ⟨2, (Alone.once compares).trans (.once ?_)⟩
      by_cases same : s.generation? = some generation <;> simp [next, key, same]
    · exact ⟨1, .once (by simp [next, compared, key])⟩

theorem rerouted_same {kernels : List Kernel} {number : Nat} {k : Kernel} (there : kernels[number]? = some k) :
    rerouted kernels number k.route = kernels := by
  refine List.ext_getElem? fun n => ?_
  by_cases same : number = n
  · subst same
    simp [rerouted, there]
  · simp [rerouted, same]

-- The device path has failed: a run latches and goes to the host, or it gives up.
theorem retreat_alone (s : Session) {kernels : List Kernel} (call : Call)
    (there : kernels[call.number]? = some call.kernel) (route : Route) (signature : Signature) (e : KernelError) :
    ∃ n, Alone n (s, kernels, .refused (.run call route signature) e) (if Session.fallsBack call.kernel e
      then (s, rerouted kernels call.number (s.latch call.kernel signature).route, .ran call (s.runHost call.kernel call.args))
      else (s, kernels, .ran call (.error e))) := by
  have first : Alone 1 (s, kernels, .refused (.run call route signature) e)
      (retreats s kernels e (.run call route signature)) := .once rfl
  unfold retreats at first
  dsimp only at first
  split
  · rename_i falls
    rw [if_pos falls] at first
    unfold Session.latch
    cases now : s.generation? with
    | none =>
      rw [now] at first
      dsimp only at first ⊢
      rw [rerouted_same there]
      exact ⟨_, first.trans (.step .done)⟩
    | some generation =>
      rw [now] at first
      exact ⟨_, first.trans (.step (.step .done))⟩
  · rename_i stands
    rw [if_neg stands] at first
    exact ⟨_, first⟩

theorem called_alone {s : Session} (sound : s.Sound) {kernels : List Kernel} {number : Nat} {k : Kernel}
    (there : kernels[number]? = some k) (args : List Arg) :
    let ran := s.run k args
    ∃ n, Alone n (s, kernels, called ⟨number, k, args⟩)
      (ran.1, rerouted kernels number ran.2.1.route, .ran ⟨number, k, args⟩ ran.2.2) := by
  have same := rerouted_same there
  unfold Session.run
  dsimp only
  cases checked : k.checkArgs args with
  | error e =>
    unfold called
    dsimp only
    rw [checked, same]
    exact ⟨0, .done⟩
  | ok _ =>
    obtain ⟨m, tried⟩ := attempt_alone s kernels ⟨number, k, args⟩ checked
    dsimp only at tried ⊢
    cases tries : s.attempt? k with
    | none =>
      rw [tries] at tried
      dsimp only
      rw [same]
      exact ⟨_, tried.trans (.step .done)⟩
    | some signature =>
      rw [tries] at tried
      have device := runDevice_alone sound kernels ⟨number, k, args⟩ k.route signature
      dsimp only [Option.elim] at tried device ⊢
      generalize s.runDevice k args = ran at device
      obtain ⟨after, result⟩ := ran
      rcases device with ⟨e, n, failed, alone⟩ | ⟨out, n, ended, alone⟩
      · cases failed
        obtain ⟨_, back⟩ := retreat_alone after ⟨number, k, args⟩ there k.route signature e
        dsimp only at back ⊢
        split
        · rename_i falls
          rw [if_pos falls] at back
          exact ⟨_, tried.trans (alone.trans back)⟩
        · rename_i stands
          rw [if_neg stands] at back
          rw [same]
          exact ⟨_, tried.trans (alone.trans back)⟩
      · cases ended
        dsimp only at alone ⊢
        split at alone
        · rename_i onDevice
          rw [← onDevice, same]
          exact ⟨_, tried.trans alone⟩
        · exact ⟨_, tried.trans (alone.trans (.step .done))⟩

section
variable {w : Crowd} {t : Nat} (free : w.callers t = .idle)
include free

theorem start_alone {command : Command} {n : Nat} {last : Turn} (alone : Alone n (enter w.session w.kernels command) last) :
    w.after (List.replicate n (.go t) ++ [.start t command]) = w.take t last := by
  rw [after_append, after_cons, Crowd.after, act, free]
  exact alone.after w t

theorem run_alone (sound : w.session.Sound) {number : Nat} {k : Kernel} (there : w.kernels[number]? = some k)
    (args : List Arg) :
    let ran := w.session.run k args
    ∃ steps, w.after (List.replicate steps (.go t) ++ [.start t (.run number args)]) =
      w.take t (ran.1, rerouted w.kernels number ran.2.1.route, .ran ⟨number, k, args⟩ ran.2.2) := by
  have entered : enter w.session w.kernels (.run number args) = (w.session, w.kernels, called ⟨number, k, args⟩) := by
    simp only [enter, there]
  obtain ⟨n, alone⟩ := called_alone sound there args
  rw [← entered] at alone
  exact ⟨n, start_alone free alone⟩

theorem compile_alone (sound : w.session.Sound) (body : Body) (settings : Settings) :
    let compiled := w.session.compile body settings
    ∃ steps, w.after (List.replicate steps (.go t) ++ [.start t (.compile body settings)]) =
      w.take t (compiled.1, w.kernels ++ compiled.2.toOption.toList, .idle) := by
  suffices alone : ∃ n, Alone n (enter w.session w.kernels (.compile body settings))
      ((w.session.compile body settings).1,
        w.kernels ++ (w.session.compile body settings).2.toOption.toList, .idle) by
    obtain ⟨n, alone⟩ := alone
    exact ⟨n, start_alone free alone⟩
  unfold enter Session.compile
  dsimp only
  cases Kernel.make body settings with
  | error e =>
    dsimp only [Except.toOption, Option.toList]
    rw [List.append_nil]
    exact ⟨0, .done⟩
  | ok made =>
    dsimp only
    split
    · exact ⟨0, .done⟩
    · have signed : Alone 1 (w.session, w.kernels, .checked made)
          (w.session, w.kernels, .wants (.compile made (made.signature w.session.registry))) := .step .done
      have asked := program_alone sound w.kernels (.compile made (made.signature w.session.registry)) (.inr rfl)
      dsimp only [Aim.kernel] at asked
      generalize w.session.program made = got at asked
      obtain ⟨after, outcome⟩ := got
      rcases asked with ⟨e, n, failed, alone⟩ | ⟨found, n, ended, alone⟩
      · cases failed
        refine ⟨_, signed.trans (alone.trans (.once ?_))⟩
        dsimp only [next, retreats]
        split <;> simp [Except.toOption]
      · cases ended
        exact ⟨_, signed.trans (alone.trans (.step .done))⟩

theorem shader_alone (sound : w.session.Sound) {number : Nat} {k : Kernel} (there : w.kernels[number]? = some k) :
    ∃ steps, w.after (List.replicate steps (.go t) ++ [.start t (.shader number)]) =
      w.take t ((w.session.shader k).1, w.kernels, .idle) := by
  suffices alone : ∃ n, Alone n (enter w.session w.kernels (.shader number))
      ((w.session.shader k).1, w.kernels, .idle) by
    obtain ⟨n, alone⟩ := alone
    exact ⟨n, start_alone free alone⟩
  unfold enter Session.shader
  dsimp only
  rw [there]
  dsimp only
  split
  · exact ⟨0, .done⟩
  · have asked := program_alone sound w.kernels (.shader k) (.inr rfl)
    dsimp only [Aim.kernel] at asked
    generalize w.session.program k = got at asked
    obtain ⟨after, outcome⟩ := got
    rcases asked with ⟨e, n, failed, alone⟩ | ⟨found, n, ended, alone⟩
    · cases failed
      exact ⟨_, alone.trans (.step .done)⟩
    · cases ended
      exact ⟨_, alone.trans (.step .done)⟩

theorem register_alone (d : Definition) :
    ∃ steps, w.after (List.replicate steps (.go t) ++ [.start t (.register d)]) =
      w.take t ((w.session.register d).1, w.kernels, .idle) := by
  suffices alone : ∃ n, Alone n (enter w.session w.kernels (.register d))
      ((w.session.register d).1, w.kernels, .idle) by
    obtain ⟨n, alone⟩ := alone
    exact ⟨n, start_alone free alone⟩
  unfold enter Session.register
  dsimp only
  generalize w.session.registry.register d = outcome
  obtain ⟨registry, result⟩ := outcome
  cases result with
  | error e => exact ⟨0, .done⟩
  | ok how =>
    cases how with
    | added => exact ⟨0, .done⟩
    | replaced => exact ⟨1, .step .done⟩

end

end GridKernel.Crowd
