import GridKernel.Proofs.Session.Interleaving

namespace GridKernel.Crowd

variable {start : Crowd} {past : List Act} {t : Nat}

def Phase.unsettled? : Phase → Option Errand
  | .holds errand | .builds errand _ | .built errand _ _ => some errand
  | _ => none

-- The helper was replaced while a request for the key was not settled.
def Overtaken (start : Crowd) (past : List Act) (key : Signature) (name : String) : Prop :=
  ∃ caller d before, .start caller (.register d) :: before <:+ past ∧ d.name = name ∧
    (after start before).callers caller = .idle ∧
    (∃ registry, (after start before).session.registry.register d = (registry, .ok .replaced)) ∧
    ∃ holder errand, ((after start before).callers holder).unsettled? = some errand ∧ errand.key = key

theorem Overtaken.act {key : Signature} {name : String} (overtaken : Overtaken start past key name) (a : Act) :
    Overtaken start (a :: past) key name := by
  obtain ⟨caller, d, before, within, rest⟩ := overtaken
  exact ⟨caller, d, before, within.trans (List.suffix_cons a past), rest⟩

theorem served_unsettled (s : Session) (kernels : List Kernel) (found : CachedProgram Signature Compiled) (aim : Aim) :
    (served s kernels found aim).2.2.unsettled? = none := by
  cases aim with
  | compile | shader => rfl
  | run call route signature =>
    unfold served
    dsimp only
    split
    · rfl
    · split
      · rfl
      · dsimp only
        split <;> rfl

theorem retreats_unsettled (s : Session) (kernels : List Kernel) (e : KernelError) (aim : Aim) :
    (retreats s kernels e aim).2.2.unsettled? = none := by
  cases aim with
  | compile | shader => rfl
  | run call route signature =>
    unfold retreats
    dsimp only
    split
    · split <;> rfl
    · rfl

-- A request that is not settled was there before, or its helpers were taken just now.
theorem next_unsettled {s : Session} {kernels : List Kernel} {phase : Phase} {errand : Errand}
    (shows : (next s kernels phase).2.2.unsettled? = some errand) :
    phase.unsettled? = some errand ∨ errand.functions = errand.aim.kernel.functions s.registry := by
  cases phase with
  | signs call route =>
    dsimp only [next] at shows
    rcases compared_parts call route (call.kernel.signature s.registry) with ⟨g, same⟩ | same <;> rw [same] at shows <;>
      cases shows
  | compares call route signature generation =>
    dsimp only [next] at shows
    split at shows <;> cases shows
  | wants aim =>
    dsimp only [next] at shows
    split at shows
    · cases shows
      exact .inr rfl
    · cases shows
  | holds held =>
    dsimp only [next] at shows
    cases what : (s.cache.lookup held.key).2 with
    | leads flight =>
      rw [what] at shows
      exact .inl shows
    | hit | joined =>
      rw [what] at shows
      cases shows
  | builds held flight =>
    dsimp only [next] at shows
    split at shows <;> exact .inl shows
  | waits held flight =>
    dsimp only [next] at shows
    split at shows <;> cases shows
  | answered held ending =>
    cases ending with
    | none => cases shows
    | some outcome =>
      cases outcome with
      | error e => cases shows
      | ok found => cases (served_unsettled s kernels found held.aim).symm.trans shows
  | refused aim e => cases (retreats_unsettled s kernels e aim).symm.trans shows
  | _ => cases shows

-- A program that is there now was there before, or its builder has just settled.
theorem next_ready {s : Session} {kernels : List Kernel} {phase : Phase} {key : Signature}
    {p : CachedProgram Signature Compiled} (there : (key, .ready p) ∈ (next s kernels phase).1.cache.slots) :
    (key, .ready p) ∈ s.cache.slots ∨ ∃ errand flight, phase = .built errand flight (some (.ok p)) ∧ errand.key = key := by
  cases phase with
  | holds held =>
    dsimp only [next] at there
    rcases s.cache.lookup_parts held.key with ⟨_, _, _, after⟩ | ⟨_, _, _, after⟩ | ⟨_, _, after⟩ <;> rw [after] at there
    · exact .inl there
    · exact .inl there
    · rcases (Cache.mem_withSlot _ _ _ _).mp there with new | ⟨old, _⟩
      · cases new
      · exact .inl old
  | builds held flight =>
    dsimp only [next] at there
    split at there <;> exact .inl there
  | built held flight ending =>
    rcases Cache.mem_of_mem_settle _ _ _ _ there with ⟨_, made, new⟩ | ⟨old, _⟩
    · cases new
      exact .inr ⟨held, flight, by rw [Flights.delivered_ok made], rfl⟩
    · exact .inl old
  | waits held flight =>
    dsimp only [next] at there
    split at there <;> exact .inl there
  | answered held ending =>
    cases ending with
    | none => exact .inl there
    | some outcome =>
      cases outcome with
      | error e => exact .inl there
      | ok found =>
        dsimp only [next] at there
        rw [served_cache] at there
        exact .inl there
  | refused aim e =>
    dsimp only [next] at there
    rw [retreats_session] at there
    exact .inl there
  | replaced name => exact .inl (Cache.mem_of_mem_invalidate _ _ _ there)
  | _ => exact .inl there

-- What becomes of a definition that a request or a program was made with: it is still the one
-- registered, or the helper was replaced too early for the invalidation to find the program.
def Standing (start : Crowd) (past : List Act) (key : Signature) (d : Definition) : Prop :=
  (after start past).session.registry.get? d.name = some d ∨ Overtaken start past key d.name

-- Between the write of a registration and its invalidation, the programs are still to be dropped.
structure Fresh (start : Crowd) (past : List Act) : Prop where
  held : ∀ t errand, ((after start past).callers t).unsettled? = some errand →
    ∀ d ∈ errand.functions.functions, Standing start past errand.key d
  ready : ∀ key p, (key, .ready p) ∈ (after start past).session.cache.slots →
    ∀ d ∈ p.artifact.program.request.functions.functions,
      (∃ t, (after start past).callers t = .replaced d.name) ∨ Standing start past key d

theorem Standing.act {key : Signature} {d : Definition} (standing : Standing start past key d) {a : Act}
    (same : (after start (a :: past)).session.registry.get? d.name = (after start past).session.registry.get? d.name) :
    Standing start (a :: past) key d := by
  rcases standing with now | overtaken
  · exact .inl (same.trans now)
  · exact .inr (overtaken.act a)

-- Everything but a registration: a program that was not there is one that a caller has built.
theorem Fresh.quiet (fresh : Fresh start past) {a : Act}
    (registry : (after start (a :: past)).session.registry = (after start past).session.registry)
    (held : ∀ t errand, ((after start (a :: past)).callers t).unsettled? = some errand →
      ((after start past).callers t).unsettled? = some errand ∨
        errand.functions = errand.aim.kernel.functions (after start past).session.registry)
    (ready : ∀ key p, (key, .ready p) ∈ (after start (a :: past)).session.cache.slots →
      ((key, .ready p) ∈ (after start past).session.cache.slots ∧
        ∀ t, ∀ d ∈ p.artifact.program.request.functions.functions, (after start past).callers t = .replaced d.name →
          (after start (a :: past)).callers t = .replaced d.name) ∨
      ∃ t errand, ((after start past).callers t).unsettled? = some errand ∧ errand.key = key ∧
        p.artifact.program.request.functions = errand.functions) :
    Fresh start (a :: past) := by
  refine ⟨?_, ?_⟩
  · intro t errand shows d member
    rcases held t errand shows with before | taken
    · exact (fresh.held t errand before d member).act (by rw [registry])
    · rw [taken] at member
      refine .inl ?_
      rw [registry]
      exact ((Registry.mem_snapshot_functions _ _ d).mp member).1
  · intro key p there d member
    rcases ready key p there with ⟨before, stays⟩ | ⟨t, errand, shows, rfl, same⟩
    · rcases fresh.ready key p before d member with ⟨t, replaced⟩ | standing
      · exact .inl ⟨t, stays t d member replaced⟩
      · exact .inr (standing.act (by rw [registry]))
    · rw [same] at member
      exact .inr ((fresh.held t errand shows d member).act (by rw [registry]))

-- A registration that replaces a helper overtakes the requests under way. The finished programs wait
-- for its invalidation.
theorem Fresh.registered (fresh : Fresh start past) {d : Definition} (free : (after start past).callers t = .idle)
    {registry : Registry} {how : Registration}
    (accepted : (after start past).session.registry.register d = (registry, .ok how)) :
    Fresh start (.start t (.register d) :: past) := by
  obtain ⟨_, rfl, replaces⟩ := Registry.register_parts accepted
  have step : after start (.start t (.register d) :: past) = (after start past).take t
      ({ (after start past).session with registry := (after start past).session.registry.store d },
        (after start past).kernels, if how = .replaced then .replaced d.name else .idle) := by
    rw [after_cons, act, free]
    cases how <;> simp [enter, accepted]
  have others {other : Nat} (apart : other ≠ t) :
      (after start (.start t (.register d) :: past)).callers other = (after start past).callers other := by
    rw [step, take_other _ apart]
  have kept {name : String} (other : name ≠ d.name) :
      (after start (.start t (.register d) :: past)).session.registry.get? name =
        (after start past).session.registry.get? name := by
    rw [step]
    exact Registry.get?_store_other _ d other
  have replaced {e : Definition} (named : e.name = d.name)
      (now : (after start past).session.registry.get? e.name = some e) : how = .replaced :=
    replaces.mpr (by rw [← named, now]; rfl)
  refine ⟨?_, ?_⟩
  · intro other errand shows e member
    have apart : other ≠ t := by
      rintro rfl
      rw [step, take_self] at shows
      dsimp only at shows
      split at shows <;> cases shows
    rw [others apart] at shows
    by_cases named : e.name = d.name
    · rcases fresh.held other errand shows e member with now | overtaken
      · cases replaced named now
        exact .inr ⟨t, d, past, List.suffix_rfl, named.symm, free, ⟨_, accepted⟩, other, errand, shows, rfl⟩
      · exact .inr (overtaken.act _)
    · exact (fresh.held other errand shows e member).act (kept named)
  · intro key p there e member
    rw [step] at there
    rcases fresh.ready key p there e member with ⟨other, waits⟩ | standing
    · have apart : other ≠ t := by
        rintro rfl
        rw [free] at waits
        cases waits
      exact .inl ⟨other, (others apart).trans waits⟩
    · by_cases named : e.name = d.name
      · rcases standing with now | overtaken
        · refine .inl ⟨t, ?_⟩
          rw [step, take_self, named]
          exact if_pos (replaced named now)
        · exact .inr (.inr (overtaken.act _))
      · exact .inr (standing.act (kept named))

theorem Fresh.went (valid : start.session.registry.Valid) {keyOf : Nat → Signature} (kept : Kept start past keyOf)
    (fresh : Fresh start past) (t : Nat) : Fresh start (.go t :: past) := by
  have step : after start (.go t :: past) = (after start past).take t
      (next (after start past).session (after start past).kernels ((after start past).callers t)) := rfl
  refine fresh.quiet (by rw [step, take_session, next_registry]) ?_ ?_
  · intro other errand shows
    by_cases moved : other = t
    · subst moved
      rw [step, take_self] at shows
      exact next_unsettled shows
    · rw [step, take_other _ moved] at shows
      exact .inl shows
  · intro key p there
    rw [step, take_session] at there
    rcases next_ready there with old | ⟨errand, flight, built, rfl⟩
    · refine .inl ⟨old, ?_⟩
      intro other d member waits
      by_cases moved : other = t
      · -- The caller drops all programs built with the helper, so this is not one of them.
        subst moved
        rw [waits] at there
        have unused : p.functions.contains d.name = false := Cache.unused_of_mem_invalidate _ d.name _ there
        rw [(kept.stocked.ready key p old).names, List.contains_eq_mem, decide_eq_false_iff_not] at unused
        exact absurd (List.mem_map_of_mem member) unused
      · rw [step, take_other _ moved]
        exact waits
    · have fits := kept.callers t
      rw [built] at fits
      refine .inr ⟨t, errand, by rw [built]; rfl, rfl, ?_⟩
      exact ((fits.2.2 p rfl).serves valid fits.1.2.taken).functions

theorem Fresh.aside (fresh : Fresh start past) {a : Act}
    (callers : (after start (a :: past)).callers = (after start past).callers)
    (registry : (after start (a :: past)).session.registry = (after start past).session.registry)
    (fewer : ∀ entry ∈ (after start (a :: past)).session.cache.slots, entry ∈ (after start past).session.cache.slots) :
    Fresh start (a :: past) := by
  refine fresh.quiet registry ?_ ?_
  · intro t errand shows
    rw [callers] at shows
    exact .inl shows
  · intro key p there
    refine .inl ⟨fewer _ there, ?_⟩
    intro t d _ waits
    rw [callers]
    exact waits

theorem Fresh.moved (fresh : Fresh start past) {a : Act} {turn : Turn}
    (step : after start (a :: past) = (after start past).take t turn)
    (registry : turn.1.registry = (after start past).session.registry)
    (cache : turn.1.cache = (after start past).session.cache)
    (held : ∀ errand, turn.2.2.unsettled? = some errand → ((after start past).callers t).unsettled? = some errand)
    (waits : ∀ name, (after start past).callers t = .replaced name → turn.2.2 = .replaced name) :
    Fresh start (a :: past) := by
  refine fresh.quiet (by rw [step, take_session, registry]) ?_ ?_
  · intro other errand shows
    by_cases same : other = t
    · subst same
      rw [step, take_self] at shows
      exact .inl (held errand shows)
    · rw [step, take_other _ same] at shows
      exact .inl shows
  · intro key p there
    rw [step, take_session, cache] at there
    refine .inl ⟨there, ?_⟩
    intro other d _ here
    by_cases same : other = t
    · subst same
      rw [step, take_self]
      exact waits _ here
    · rw [step, take_other _ same]
      exact here

theorem enter_unsettled (s : Session) (kernels : List Kernel) (command : Command) :
    (enter s kernels command).2.2.unsettled? = none := by
  unfold enter
  cases command with
  | compile body settings =>
    dsimp only
    split
    · rfl
    · split <;> rfl
  | run number args =>
    dsimp only
    split
    · rfl
    · unfold called
      dsimp only
      split
      · rfl
      · split <;> rfl
  | shader number =>
    dsimp only
    split
    · rfl
    · dsimp only
      split <;> rfl
  | register d =>
    dsimp only
    split <;> rfl

theorem abandoned_unsettled (phase : Phase) : (abandoned phase).unsettled? = phase.unsettled? := by
  cases phase <;> rfl

theorem Fresh.started (fresh : Fresh start past) (t : Nat) (command : Command) : Fresh start (.start t command :: past) := by
  by_cases free : (after start past).callers t = .idle
  · have step : after start (.start t command :: past) =
        (after start past).take t (enter (after start past).session (after start past).kernels command) := by
      rw [after_cons, act, free]
    -- Unless something is registered, the session stays as it is.
    have moved (same : (enter (after start past).session (after start past).kernels command).1 =
        (after start past).session) : Fresh start (.start t command :: past) := by
      refine fresh.moved step (by rw [same]) (by rw [same]) ?_ ?_
      · intro errand shows
        cases (enter_unsettled _ _ command).symm.trans shows
      · intro name waits
        cases free.symm.trans waits
    cases command with
    | register d =>
      rcases (after start past).session.registry.register_cases d with ⟨e, refused⟩ | ⟨how, accepted, _⟩
      · exact moved (by simp only [enter, refused])
      · exact fresh.registered free accepted
    | compile body settings =>
      refine moved ?_
      unfold enter
      dsimp only
      split
      · rfl
      · split <;> rfl
    | run number args | shader number =>
      refine moved ?_
      unfold enter
      dsimp only
      split <;> rfl
  · have nothing : after start (.start t command :: past) = after start past := act_busy free command
    exact fresh.aside (by rw [nothing]) (by rw [nothing]) (by rw [nothing]; exact fun _ there => there)

theorem act_fresh (valid : start.session.registry.Valid) {keyOf : Nat → Signature} (kept : Kept start past keyOf)
    (fresh : Fresh start past) (a : Act) (through : ∀ d, a ≠ .define d) : Fresh start (a :: past) := by
  cases a with
  | start t command => exact fresh.started t command
  | go t => exact fresh.went valid kept t
  | abandon t =>
    refine fresh.moved rfl rfl rfl ?_ ?_
    · intro errand shows
      rwa [← abandoned_unsettled]
    · intro name waits
      dsimp only
      rw [waits]
      rfl
  | define d => exact absurd rfl (through d)
  | invalidate name => exact fresh.aside rfl rfl fun entry there => Cache.mem_of_mem_invalidate _ name entry there
  | clear => exact fresh.aside rfl rfl fun entry there => (List.mem_filter.mp there).1
  | faults | lose | restore => exact fresh.aside rfl rfl fun _ there => there

theorem after_fresh (device : Option Device) (order : ByteOrder) (strict : Bool) (capacity : Option Nat) (past : List Act)
    (through : ∀ d, .define d ∉ past) : Fresh (new device order strict capacity) past := by
  induction past with
  | nil => exact ⟨nofun, nofun⟩
  | cons a past ih =>
    obtain ⟨keyOf, kept⟩ := after_kept device order strict capacity past
    refine act_fresh (Registry.new_valid strict) kept (ih fun d member => through d (List.mem_cons_of_mem a member)) a ?_
    rintro d rfl
    exact through d List.mem_cons_self

theorem Fits.held {keyOf : Nat → Signature} {flights : Nat} {phase : Phase}
    (fits : Fits start past t keyOf flights phase) {errand : Errand} (shows : phase.unsettled? = some errand) :
    Held start past t errand := by
  cases phase with
  | holds =>
    cases shows
    exact fits.2
  | builds | built =>
    cases shows
    exact fits.1.2
  | _ => cases shows

-- A replaced helper has a stamp that was not given before, and never gets an older one.
theorem replaced_stamp {caller : Nat} {d : Definition} {before : List Act} {registry : Registry} {how : Registration}
    (within : .start caller (.register d) :: before <:+ past) (free : (after start before).callers caller = .idle)
    (accepted : (after start before).session.registry.register d = (registry, .ok how)) :
    ∃ e, (after start past).session.registry.get? d.name = some e ∧
      (after start before).session.registry.nextGeneration ≤ e.generation := by
  obtain ⟨_, rfl, _⟩ := Registry.register_parts accepted
  have stored : (after start (.start caller (.register d) :: before)).session.registry =
      (after start before).session.registry.store d := by
    rw [after_cons, act, free]
    cases how <;> simp [enter, accepted]
  have later : ((after start before).session.registry.store d).Later (after start past).session.registry :=
    stored ▸ moment_later within
  rcases later.get? d.name with same | ⟨e, found, newer⟩
  · rw [Registry.get?_store_self] at same
    exact ⟨_, same, Nat.le_refl _⟩
  · exact ⟨e, found, Nat.le_of_succ_le newer⟩

-- A program for the key of an overtaken request is built from the definition that was replaced.
theorem Overtaken.stale (valid : start.session.registry.Valid) (kept : ∀ before, ∃ keyOf, Kept start before keyOf)
    {key : Signature} {name : String} (overtaken : Overtaken start past key name) {p : CachedProgram Signature Compiled}
    (fit : Fit start past key p) (used : name ∈ p.functions) :
    ∃ d ∈ p.artifact.program.request.functions.functions,
      (after start past).session.registry.get? d.name ≠ some d := by
  obtain ⟨caller, d, before, within, rfl, free, ⟨registry, accepted⟩, holder, errand, shows, rfl⟩ := overtaken
  obtain ⟨keyOf, was⟩ := kept before
  obtain ⟨mid, busy, taken⟩ := (was.callers holder).held shows
  have earlier : mid <:+ past := busy.within.trans ((List.suffix_cons _ _).trans within)
  have same := (fit.serves valid ⟨mid, earlier, _, taken⟩).functions
  rw [fit.names, same] at used
  obtain ⟨e, member, named⟩ := List.mem_map.mp used
  refine ⟨e, same ▸ member, ?_⟩
  -- The stamp of the old definition was given before the request took it up.
  have old : e.generation < (after start before).session.registry.nextGeneration := by
    rw [taken] at member
    exact Nat.lt_of_lt_of_le ((moment_valid valid mid).stamped e (Registry.snapshot_mem _ _ e member))
      (moment_later busy.within).nextGeneration_le
  obtain ⟨new, found, newer⟩ := replaced_stamp within free accepted
  intro current
  rw [named, found] at current
  cases current
  exact Nat.not_lt_of_le newer old

-- A replacement drops the finished programs with the old helper. What a request that had taken it brings in
-- afterwards stays, and no other program is out of date.
theorem stale_programs_were_overtaken (device : Option Device) (order : ByteOrder) (strict : Bool) (capacity : Option Nat)
    (past : List Act) (through : ∀ d, .define d ∉ past)
    (quiet : ∀ t name, (after (new device order strict capacity) past).callers t ≠ .replaced name)
    (key : Signature) (p : CachedProgram Signature Compiled)
    (there : (key, .ready p) ∈ (after (new device order strict capacity) past).session.cache.slots) :
    (∀ d ∈ p.artifact.program.request.functions.functions,
      (after (new device order strict capacity) past).session.registry.get? d.name = some d) ↔
    ∀ name ∈ p.functions, ¬ Overtaken (new device order strict capacity) past key name := by
  obtain ⟨keyOf, kept⟩ := after_kept device order strict capacity past
  have fit := kept.stocked.ready key p there
  constructor
  · intro current name used overtaken
    obtain ⟨d, member, changed⟩ := overtaken.stale (Registry.new_valid strict)
      (after_kept device order strict capacity) fit used
    exact changed (current d member)
  · intro undisturbed d member
    rcases (after_fresh device order strict capacity past through).ready key p there d member with ⟨t, waits⟩ | standing
    · exact absurd waits (quiet t d.name)
    · refine standing.resolve_right (undisturbed d.name ?_)
      rw [fit.names]
      exact List.mem_map_of_mem member

-- Caller 0 has taken the helpers for a compile when caller 1 replaces the one it needs. The invalidation
-- finds nothing yet, and the program comes in after it.
def overtakenBuild : List Act :=
  List.replicate 5 (.go 0) ++ (List.replicate 1 (.go 1) ++ [.start 1 (.register undoubled)]) ++
    (List.replicate 2 (.go 0) ++ [.start 0 compileTwice]) ++ [.start 0 (.register doubled)]

theorem undoubled_now : (doubledSession.registry.store undoubled).get? "doubled" ≠ some { doubled with generation := 8 } := by
  have now : (doubledSession.registry.store undoubled).get? "doubled" = some { undoubled with generation := 9 } := rfl
  intro same
  have stamps := congrArg Definition.generation (Option.some.inj (now.symm.trans same))
  exact absurd stamps (by decide)

theorem overtakenBuild_ends : ∃ text, let w := after (new (some {}) .little false none) overtakenBuild
    (∀ t, w.callers t = .idle) ∧ (twiceErrand.key, .ready (twiceProgram text)) ∈ w.session.cache.slots ∧
      w.session.registry = doubledSession.registry.store undoubled := by
  let replaced : Session := { doubledSession with registry := doubledSession.registry.store undoubled }
  have held := start_alone (w := (new (some {}) .little false none).take 0 (doubledSession, [], .idle)) (t := 0) rfl
    twice_held
  rw [take_take] at held
  have registers : Alone 1 (enter doubledSession [] (.register undoubled)) (replaced, [], .idle) := .once rfl
  have registered := start_alone
    (w := (new (some {}) .little false none).take 0 (doubledSession, [], .holds twiceErrand)) (t := 1) rfl registers
  obtain ⟨text, led⟩ := twice_led (s := replaced) rfl rfl rfl
  have built := go_alone (w := ((new (some {}) .little false none).take 0 (doubledSession, [], .holds twiceErrand)).take 1
    (replaced, [], .idle)) (t := 0) led
  refine ⟨text, ?_⟩
  rw [overtakenBuild, after_append, doubled_registered, after_append, held, after_append, registered, built]
  refine ⟨?_, List.mem_cons_self, rfl⟩
  intro t
  simp only [take, new]
  split
  · rfl
  · split <;> rfl

theorem overtaken_program_stays : let w := after (new (some {}) .little false none) overtakenBuild
    (∀ d, .define d ∉ overtakenBuild) ∧ (∀ t, w.callers t = .idle) ∧
      ∃ key p, (key, .ready p) ∈ w.session.cache.slots ∧
        ∃ d ∈ p.artifact.program.request.functions.functions, w.session.registry.get? d.name ≠ some d := by
  obtain ⟨text, idle, there, registry⟩ := overtakenBuild_ends
  refine ⟨by simp [overtakenBuild], idle, twiceErrand.key, twiceProgram text, there, _, List.mem_cons_self, ?_⟩
  rw [registry]
  exact undoubled_now

theorem overtaken_program_explained : ∃ p,
    let w := after (new (some {}) .little false none) overtakenBuild
    (∀ d, .define d ∉ overtakenBuild) ∧ (∀ t name, w.callers t ≠ .replaced name) ∧
      (twiceErrand.key, .ready p) ∈ w.session.cache.slots ∧
      ∃ name ∈ p.functions, Overtaken (new (some {}) .little false none) overtakenBuild twiceErrand.key name := by
  obtain ⟨text, idle, there, registry⟩ := overtakenBuild_ends
  have through : ∀ d, .define d ∉ overtakenBuild := by simp [overtakenBuild]
  have quiet (t : Nat) (name : String) :
      (after (new (some {}) .little false none) overtakenBuild).callers t ≠ .replaced name := by
    rw [idle t]
    nofun
  refine ⟨twiceProgram text, through, quiet, there, ?_⟩
  by_contra none
  have current := (stale_programs_were_overtaken _ _ _ _ _ through quiet _ _ there).mpr
    fun name used overtaken => none ⟨name, used, overtaken⟩
  have doubled := current { doubled with generation := 8 } List.mem_cons_self
  rw [registry] at doubled
  exact undoubled_now doubled

end GridKernel.Crowd
