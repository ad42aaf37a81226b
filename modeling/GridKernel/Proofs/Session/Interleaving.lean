import GridKernel.Proofs.Session.Alone
import GridKernel.Proofs.Session.Refinement

namespace GridKernel.Crowd

variable {start : Crowd} {past : List Act} {t : Nat}

def Taken (start : Crowd) (past : List Act) (functions : Snapshot) : Prop :=
  ∃ mid, mid <:+ past ∧ ∃ k : Kernel, functions = k.functions (after start mid).session.registry

theorem Taken.act {functions : Snapshot} (taken : Taken start past functions) (a : Act) :
    Taken start (a :: past) functions := by
  obtain ⟨mid, within, same⟩ := taken
  exact ⟨mid, within.trans (List.suffix_cons a past), same⟩

-- A stamp means the same definition at every moment.
theorem Taken.eq (valid : start.session.registry.Valid) {first second : Snapshot} (one : Taken start past first)
    (two : Taken start past second) (same : first.fingerprint = second.fingerprint) : first = second := by
  obtain ⟨mid, within, k, rfl⟩ := one
  obtain ⟨other, inside, l, rfl⟩ := two
  rcases List.suffix_or_suffix_of_suffix within inside with before | before
  · exact Kernel.functions_eq (moment_valid valid mid) (moment_later before).extends k l same
  · exact (Kernel.functions_eq (moment_valid valid other) (moment_later before).extends l k same.symm).symm

structure Fit (start : Crowd) (past : List Act) (key : Signature) (p : CachedProgram Signature Compiled) : Prop where
  fitting : p.artifact.program.Fitting
  key : key = ⟨p.artifact.program.request.body.stream, p.artifact.program.request.types,
    p.artifact.program.request.grid.axes, p.artifact.program.request.functions.fingerprint⟩
  names : p.functions = p.artifact.program.request.functions.names
  taken : Taken start past p.artifact.program.request.functions

theorem Fit.act {key : Signature} {p : CachedProgram Signature Compiled} (fit : Fit start past key p) (a : Act) :
    Fit start (a :: past) key p :=
  ⟨fit.fitting, fit.key, fit.names, fit.taken.act a⟩

theorem Fit.serves (valid : start.session.registry.Valid) {k : Kernel} {functions : Snapshot}
    {p : CachedProgram Signature Compiled} (fit : Fit start past (k.signatureOf functions) p)
    (taken : Taken start past functions) : p.artifact.program.Serves k functions := by
  have key := fit.key
  simp only [Kernel.signatureOf, Kernel.id, Signature.mk.injEq] at key
  obtain ⟨body, types, axes, same⟩ := key
  exact ⟨fit.fitting, Body.sameUpToNames_of_stream _ _ body.symm, types.symm, Grid.eq_of_axes axes.symm,
    fit.taken.eq valid taken same.symm⟩

theorem fit_built {s : Session} (generator : s.synthesize = Shader.generate) {device : Device} {k : Kernel}
    {functions : Snapshot} (taken : Taken start past functions) {p : CachedProgram Signature Compiled}
    (made : (s.build device k functions).2 = .ok p) : Fit start past (k.signatureOf functions) p := by
  rcases s.build_parts generator device k functions with ⟨cause, failed, _⟩ | ⟨text, built⟩
  · rw [failed] at made
    cases made
  · rw [built] at made
    cases made
    exact ⟨rfl, rfl, rfl, taken⟩

-- Every flight has a key, and what is published to it fits that key.
structure Stocked (start : Crowd) (past : List Act) (keyOf : Nat → Signature) (c : ProgramCache) : Prop where
  unique : c.Unique
  ready : ∀ key p, (key, .ready p) ∈ c.slots → Fit start past key p
  pending : ∀ key flight, (key, .pending flight) ∈ c.slots → flight < c.flights ∧ keyOf flight = key
  published : ∀ flight p, (flight, .ok p) ∈ c.published → flight < c.flights ∧ Fit start past (keyOf flight) p

section
variable {keyOf : Nat → Signature} {c : ProgramCache}

theorem Stocked.act (stocked : Stocked start past keyOf c) (a : Act) : Stocked start (a :: past) keyOf c := by
  refine ⟨stocked.unique, ?_, stocked.pending, ?_⟩
  · intro key p member
    exact (stocked.ready key p member).act a
  · intro flight p member
    obtain ⟨started, fit⟩ := stocked.published flight p member
    exact ⟨started, fit.act a⟩

theorem Stocked.keeps (stocked : Stocked start past keyOf c) {after : ProgramCache} (kept : c.Keeps after)
    (fewer : ∀ key p, (key, .ready p) ∈ after.slots → (key, .ready p) ∈ c.slots) : Stocked start past keyOf after := by
  refine ⟨kept.unique, ?_, ?_, ?_⟩
  · intro key p member
    exact stocked.ready key p (fewer key p member)
  · intro key flight member
    rw [kept.flights]
    exact stocked.pending key flight ((kept.pending key flight).mp member)
  · rw [kept.flights, kept.published]
    exact stocked.published

theorem Stocked.invalidate (stocked : Stocked start past keyOf c) (name : String) :
    Stocked start past keyOf (c.invalidate name).1 :=
  stocked.keeps (c.invalidate_keeps stocked.unique name) fun _ _ member => Cache.mem_of_mem_invalidate c name _ member

theorem Stocked.follows (stocked : Stocked start past keyOf c) {key : Signature}
    (follows : ∀ flight, (c.lookup key).2 ≠ .leads flight) : Stocked start past keyOf (c.lookup key).1 := by
  refine stocked.keeps (Cache.lookup_keeps stocked.unique follows) ?_
  intro other p member
  rcases c.lookup_parts key with ⟨_, _, _, after⟩ | ⟨_, _, _, after⟩ | ⟨_, leads, _⟩
  · rwa [after] at member
  · rwa [after] at member
  · exact absurd leads (follows _)

-- The number of a new flight has not been used.
theorem Stocked.leads (stocked : Stocked start past keyOf c) {key : Signature} {flight : Nat}
    (leads : (c.lookup key).2 = .leads flight) :
    Stocked start past (fun f => if f = flight then key else keyOf f) (c.lookup key).1 := by
  obtain ⟨absent, rfl, after⟩ := Cache.lookup_leads leads
  have old {f : Nat} (started : f < c.flights) : (if f = c.flights then key else keyOf f) = keyOf f :=
    if_neg (Nat.ne_of_lt started)
  rw [after]
  refine ⟨Cache.unique_withSlot stocked.unique key _, ?_, ?_, ?_⟩
  · intro other p member
    rcases (Cache.mem_withSlot key _ c.slots _).mp member with new | ⟨before, _⟩
    · cases new
    · exact stocked.ready other p before
  · intro other f member
    rcases (Cache.mem_withSlot key _ c.slots _).mp member with new | ⟨before, _⟩
    · cases new
      exact ⟨Nat.lt_succ_self _, if_pos rfl⟩
    · obtain ⟨started, same⟩ := stocked.pending other f before
      exact ⟨Nat.lt_succ_of_lt started, (old started).trans same⟩
  · intro f p member
    obtain ⟨started, fit⟩ := stocked.published f p member
    refine ⟨Nat.lt_succ_of_lt started, ?_⟩
    rw [old started]
    exact fit

theorem Stocked.settle (stocked : Stocked start past keyOf c) (key : Signature) (outcome : Outcome Signature Compiled)
    (fit : ∀ p, outcome = .ok p → Fit start past key p) : Stocked start past keyOf (c.settle key outcome) := by
  obtain ⟨unique, flights, published, pending⟩ := c.settle_pending stocked.unique key outcome
  refine ⟨unique, ?_, ?_, ?_⟩
  · intro other p member
    rcases c.mem_of_mem_settle key outcome _ member with ⟨_, made, new⟩ | ⟨old, _⟩
    · cases new
      exact fit p made
    · exact stocked.ready other p old
  · intro other flight member
    rw [flights]
    exact stocked.pending other flight ((pending other flight).mp member).1
  · rw [flights, published]
    exact stocked.published

theorem Stocked.publish (stocked : Stocked start past keyOf c) {flight : Nat} (outcome : Outcome Signature Compiled)
    (started : flight < c.flights) (fit : ∀ p, outcome = .ok p → Fit start past (keyOf flight) p) :
    Stocked start past keyOf (c.publish flight outcome) := by
  refine ⟨stocked.unique, stocked.ready, stocked.pending, ?_⟩
  intro f p member
  rcases List.mem_cons.mp member with new | old
  · cases new
    exact ⟨started, fit p rfl⟩
  · exact stocked.published f p old

end

-- Since this moment the caller has been in one and the same call.
structure Busy (start : Crowd) (past : List Act) (t : Nat) (mid : List Act) : Prop where
  within : mid <:+ past
  during : ∀ later, mid <:+ later → later <:+ past → (after start later).callers t ≠ .idle

theorem busy_now (active : (after start past).callers t ≠ .idle) : Busy start past t past := by
  refine ⟨List.suffix_rfl, ?_⟩
  intro later above below
  rwa [below.eq_of_length_le above.length_le]

theorem Busy.act {mid : List Act} (busy : Busy start past t mid) {a : Act}
    (active : (after start (a :: past)).callers t ≠ .idle) : Busy start (a :: past) t mid := by
  refine ⟨busy.within.trans (List.suffix_cons a past), ?_⟩
  intro later above below
  rcases List.suffix_cons_iff.mp below with rfl | inside
  · exact active
  · exact busy.during later above inside

-- The call in which the caller is, from its start on.
def Started (start : Crowd) (past : List Act) (t : Nat) (call : Call) : Prop :=
  ∃ before, Busy start past t (.start t (.run call.number call.args) :: before) ∧
    (after start before).callers t = .idle ∧ (after start before).kernels[call.number]? = some call.kernel

-- The result of a run with the helpers of one moment of it, on the host or in 32-bit words.
def Computed (start : Crowd) (past : List Act) (t : Nat) (call : Call) (out : Output) : Prop :=
  ∃ mid, Busy start past t mid ∧ ∃ args, (args = call.args ∨ args = call.args.map Arg.rounded) ∧
    (Host.run (call.kernel.functions (after start mid).session.registry) call.kernel.body call.kernel.types
      call.kernel.grid args).map Output.ofTensor = .ok out

def Held (start : Crowd) (past : List Act) (t : Nat) (errand : Errand) : Prop :=
  ∃ mid, Busy start past t mid ∧ errand.functions = errand.aim.kernel.functions (after start mid).session.registry

def Call.Began (start : Crowd) (past : List Act) (t : Nat) (call : Call) : Prop :=
  call.kernel.checkArgs call.args = .ok () ∧ Started start past t call

def Aim.Began (start : Crowd) (past : List Act) (t : Nat) : Aim → Prop
  | .run call _ _ => call.Began start past t
  | _ => True

section
variable {a : Act} (active : (after start (a :: past)).callers t ≠ .idle)
include active

theorem Started.act {call : Call} (started : Started start past t call) : Started start (a :: past) t call := by
  obtain ⟨before, busy, rest⟩ := started
  exact ⟨before, busy.act active, rest⟩

theorem Computed.act {call : Call} {out : Output} (computed : Computed start past t call out) :
    Computed start (a :: past) t call out := by
  obtain ⟨mid, busy, rest⟩ := computed
  exact ⟨mid, busy.act active, rest⟩

theorem Held.act {errand : Errand} (held : Held start past t errand) : Held start (a :: past) t errand := by
  obtain ⟨mid, busy, rest⟩ := held
  exact ⟨mid, busy.act active, rest⟩

theorem Call.Began.act {call : Call} (began : call.Began start past t) : call.Began start (a :: past) t :=
  ⟨began.1, began.2.act active⟩

theorem Aim.Began.act {aim : Aim} (began : aim.Began start past t) : aim.Began start (a :: past) t := by
  cases aim with
  | run call route signature => exact Call.Began.act active began
  | compile | shader => trivial

end

theorem Held.taken {errand : Errand} (held : Held start past t errand) : Taken start past errand.functions := by
  obtain ⟨mid, busy, same⟩ := held
  exact ⟨mid, busy.within, _, same⟩

def Fits (start : Crowd) (past : List Act) (t : Nat) (keyOf : Nat → Signature) (flights : Nat) : Phase → Prop
  | .idle | .checked _ | .replaced _ => True
  | .signs call _ | .compares call _ _ _ | .latches call _ _ | .host call => call.Began start past t
  | .wants aim | .refused aim _ => aim.Began start past t
  | .holds errand => errand.aim.Began start past t ∧ Held start past t errand
  | .builds errand flight | .waits errand flight =>
    (errand.aim.Began start past t ∧ Held start past t errand) ∧ flight < flights ∧ keyOf flight = errand.key
  | .built errand flight ending | .settled errand flight ending =>
    (errand.aim.Began start past t ∧ Held start past t errand) ∧ (flight < flights ∧ keyOf flight = errand.key) ∧
      ∀ p, ending = some (.ok p) → Fit start past errand.key p
  | .answered errand ending =>
    (errand.aim.Began start past t ∧ Held start past t errand) ∧ ∀ p, ending = some (.ok p) → Fit start past errand.key p
  | .recovers call out => Started start past t call ∧ Computed start past t call out
  | .ran call result => Started start past t call ∧ ∀ out, result = .ok out → Computed start past t call out

section
variable {keyOf : Nat → Signature} {flights : Nat}

theorem Fits.act {a : Act} {phase : Phase} (fits : Fits start past t keyOf flights phase)
    (active : (after start (a :: past)).callers t ≠ .idle) : Fits start (a :: past) t keyOf flights phase := by
  have program {errand : Errand} {ending : Ending} (fit : ∀ p, ending = some (.ok p) → Fit start past errand.key p)
      (p : CachedProgram Signature Compiled) (made : ending = some (.ok p)) : Fit start (a :: past) errand.key p :=
    (fit p made).act a
  cases phase with
  | idle | checked | replaced => trivial
  | signs | compares | latches | host => exact Call.Began.act active fits
  | wants | refused => exact Aim.Began.act active fits
  | holds => exact ⟨fits.1.act active, fits.2.act active⟩
  | builds | waits => exact ⟨⟨fits.1.1.act active, fits.1.2.act active⟩, fits.2⟩
  | built | settled => exact ⟨⟨fits.1.1.act active, fits.1.2.act active⟩, fits.2.1, program fits.2.2⟩
  | answered => exact ⟨⟨fits.1.1.act active, fits.1.2.act active⟩, program fits.2⟩
  | recovers => exact ⟨fits.1.act active, fits.2.act active⟩
  | ran call result => exact ⟨fits.1.act active, fun out ended => (fits.2 out ended).act active⟩

-- Flights that start later are not those anyone is in.
theorem Fits.grow {phase : Phase} (fits : Fits start past t keyOf flights phase) {more : Nat} (fewer : flights ≤ more)
    {keys : Nat → Signature} (agree : ∀ f, f < flights → keys f = keyOf f) : Fits start past t keys more phase := by
  have flight {f : Nat} {key : Signature} (flies : f < flights ∧ keyOf f = key) : f < more ∧ keys f = key :=
    ⟨Nat.lt_of_lt_of_le flies.1 fewer, (agree f flies.1).trans flies.2⟩
  cases phase with
  | builds | waits => exact ⟨fits.1, flight fits.2⟩
  | built | settled => exact ⟨fits.1, flight fits.2.1, fits.2.2⟩
  | _ => exact fits

end

structure Kept (start : Crowd) (past : List Act) (keyOf : Nat → Signature) : Prop where
  generator : (after start past).session.synthesize = Shader.generate
  order : ∀ d, (after start past).session.device = some d →
    d.hostOrder = some (after start past).session.codec.order
  stocked : Stocked start past keyOf (after start past).session.cache
  callers : ∀ t, Fits start past t keyOf (after start past).session.cache.flights ((after start past).callers t)

theorem Fits.stays {keyOf : Nat → Signature} {flights : Nat} {a : Act}
    (fits : Fits start past t keyOf flights ((after start past).callers t))
    (same : (after start (a :: past)).callers t = (after start past).callers t) :
    Fits start (a :: past) t keyOf flights ((after start (a :: past)).callers t) := by
  by_cases idle : (after start past).callers t = .idle
  · rw [same, idle]
    trivial
  · have active : (after start (a :: past)).callers t ≠ .idle := by rwa [same]
    rw [same]
    exact fits.act active

-- A result of a program on the device is the one of the host for rounded arguments.
theorem execute_computes {s : Session} {device : Device} (order : device.hostOrder = some s.codec.order) {k : Kernel}
    {functions : Snapshot} {p : DeviceProgram} (serves : p.Serves k functions) {args : List Arg}
    (checked : k.checkArgs args = .ok ()) (out : Output) (ended : (s.execute device k p args).2 = .ok out) :
    (Host.run functions k.body k.types k.grid (args.map Arg.rounded)).map Output.ofTensor = .ok out := by
  have attached : device.order = s.codec.order := by simp [Device.order, order]
  rcases s.execute_parts device attached k functions p serves args ((k.checkArgs_fits args).mp checked) with
    ⟨e, failed, _⟩ | ⟨words, ran, host⟩
  · cases failed.symm.trans ended
  · cases ran.symm.trans ended
    rw [Host.run_eq, host]
    rfl

section
variable {keyOf : Nat → Signature}

theorem retreats_fits {flights : Nat} (s : Session) (kernels : List Kernel) (e : KernelError) {aim : Aim}
    (began : (retreats s kernels e aim).2.2 ≠ .idle → aim.Began start past t) :
    Fits start past t keyOf flights (retreats s kernels e aim).2.2 := by
  cases aim with
  | compile | shader => trivial
  | run call route signature =>
    unfold retreats at began ⊢
    dsimp only at began ⊢
    split
    · rename_i falls
      rw [if_pos falls] at began
      split
      · rename_i generation there
        rw [there] at began
        exact began (by simp)
      · rename_i there
        rw [there] at began
        exact began (by simp)
    · rename_i stands
      rw [if_neg stands] at began
      exact ⟨(began (by simp)).2, by simp⟩

theorem served_fits {flights : Nat} {s : Session} (order : ∀ d, s.device = some d → d.hostOrder = some s.codec.order)
    (kernels : List Kernel) {found : CachedProgram Signature Compiled} {errand : Errand}
    (serves : found.artifact.program.Serves errand.aim.kernel errand.functions)
    (began : (served s kernels found errand.aim).2.2 ≠ .idle → errand.aim.Began start past t ∧ Held start past t errand) :
    Fits start past t keyOf flights (served s kernels found errand.aim).2.2 := by
  obtain ⟨aim, functions⟩ := errand
  cases aim with
  | compile | shader => trivial
  | run call route signature =>
    unfold served at began ⊢
    dsimp only [Aim.kernel] at began serves ⊢
    cases present : s.device with
    | none =>
      rw [present] at began
      exact (began (by simp)).1
    | some device =>
      rw [present] at began
      dsimp only at began ⊢
      have computes (checked : call.kernel.checkArgs call.args = .ok ()) (out : Output) :=
        execute_computes (order device present) serves checked out
      generalize s.execute device call.kernel found.artifact.program call.args = ran at began computes ⊢
      obtain ⟨after, result⟩ := ran
      cases result with
      | error e => exact (began (by simp)).1
      | ok out =>
        dsimp only at began ⊢
        have shown : call.Began start past t ∧ Computed start past t call out := by
          obtain ⟨called, mid, busy, same⟩ := began (by split <;> simp)
          refine ⟨called, mid, busy, _, .inr rfl, ?_⟩
          rw [← show functions = call.kernel.functions _ from same]
          exact computes called.1 out rfl
        split
        · refine ⟨shown.1.2, ?_⟩
          rintro _ ⟨⟩
          exact shown.2
        · exact ⟨shown.1.2, shown.2⟩

-- A turn that leaves everything in order, with the keys of flights that start in it.
def Sustained (start : Crowd) (past : List Act) (keyOf : Nat → Signature) (t : Nat) (s : Session) (turn : Turn) : Prop :=
  ∃ keys : Nat → Signature, (∀ f, f < s.cache.flights → keys f = keyOf f) ∧ s.cache.flights ≤ turn.1.cache.flights ∧
    Stocked start past keys turn.1.cache ∧ Fits start past t keys turn.1.cache.flights turn.2.2

variable {s : Session} (kernels : List Kernel) (stocked : Stocked start past keyOf s.cache)
include stocked

theorem Stocked.still {turn : Turn} (same : turn.1.cache = s.cache)
    (fits : Fits start past t keyOf s.cache.flights turn.2.2) : Sustained start past keyOf t s turn := by
  refine ⟨keyOf, fun _ _ => rfl, ?_, ?_, ?_⟩
  · rw [same]
  · rwa [same]
  · rwa [same]

theorem Stocked.holds {errand : Errand} (fits : Fits start past t keyOf s.cache.flights (.holds errand)) :
    Sustained start past keyOf t s (next s kernels (.holds errand)) := by
  dsimp only [next]
  cases what : (s.cache.lookup errand.key).2 with
  | hit found =>
    have follows (flight : Nat) : (s.cache.lookup errand.key).2 ≠ .leads flight := by simp [what]
    have flights := (Cache.lookup_keeps stocked.unique follows).flights
    refine ⟨keyOf, fun _ _ => rfl, Nat.le_of_eq flights.symm, stocked.follows follows, fits, ?_⟩
    rintro p ⟨⟩
    exact stocked.ready _ _ (Cache.lookup_hit what)
  | joined flight =>
    have follows (flight : Nat) : (s.cache.lookup errand.key).2 ≠ .leads flight := by simp [what]
    have flights := (Cache.lookup_keeps stocked.unique follows).flights
    refine ⟨keyOf, fun _ _ => rfl, Nat.le_of_eq flights.symm, stocked.follows follows, fits, ?_⟩
    rw [flights]
    exact stocked.pending _ _ (Cache.lookup_joined what)
  | leads flight =>
    obtain ⟨_, rfl, after⟩ := Cache.lookup_leads what
    refine ⟨_, fun f started => if_neg (Nat.ne_of_lt started), ?_, stocked.leads what, fits, ?_, if_pos rfl⟩
    · rw [after]
      exact Nat.le_succ _
    · rw [after]
      exact Nat.lt_succ_self _

theorem Stocked.builds (generator : s.synthesize = Shader.generate) {errand : Errand} {flight : Nat}
    (fits : Fits start past t keyOf s.cache.flights (.builds errand flight)) :
    Sustained start past keyOf t s (next s kernels (.builds errand flight)) := by
  unfold next
  dsimp only
  cases s.device with
  | none => exact stocked.still rfl fits
  | some device =>
    refine stocked.still rfl ⟨fits.1, fits.2, ?_⟩
    rintro p made
    exact fit_built generator fits.1.2.taken (Option.some.inj made)

theorem Stocked.built {errand : Errand} {flight : Nat} {ending : Ending}
    (fits : Fits start past t keyOf s.cache.flights (.built errand flight ending)) :
    Sustained start past keyOf t s (next s kernels (.built errand flight ending)) := by
  have flights := (s.cache.settle_pending stocked.unique errand.key (Flights.delivered ending)).2.1
  refine ⟨keyOf, fun _ _ => rfl, Nat.le_of_eq flights.symm, stocked.settle _ _ ?_, ?_⟩
  · intro p made
    exact fits.2.2 p (Flights.delivered_ok made)
  · exact fits.grow (Nat.le_of_eq flights.symm) fun _ _ => rfl

theorem Stocked.settled {errand : Errand} {flight : Nat} {ending : Ending}
    (fits : Fits start past t keyOf s.cache.flights (.settled errand flight ending)) :
    Sustained start past keyOf t s (next s kernels (.settled errand flight ending)) := by
  refine ⟨keyOf, fun _ _ => rfl, Nat.le_refl _, stocked.publish _ fits.2.1.1 ?_, fits.1, fits.2.2⟩
  intro p made
  rw [fits.2.1.2]
  exact fits.2.2 p (Flights.delivered_ok made)

theorem Stocked.waits {errand : Errand} {flight : Nat}
    (fits : Fits start past t keyOf s.cache.flights (.waits errand flight)) :
    Sustained start past keyOf t s (next s kernels (.waits errand flight)) := by
  unfold next
  dsimp only
  split
  · exact stocked.still rfl fits
  · rename_i outcome got
    refine stocked.still rfl ⟨fits.1, ?_⟩
    rintro p ⟨⟩
    rw [← fits.2.2]
    exact (stocked.published flight p (Cache.received?_mem s.cache flight _ got)).2

omit stocked in
theorem served_cache (s : Session) (kernels : List Kernel) (found : CachedProgram Signature Compiled) (aim : Aim) :
    (served s kernels found aim).1.cache = s.cache := by
  cases aim with
  | compile | shader => rfl
  | run call route signature =>
    unfold served
    dsimp only
    split
    · rfl
    · split <;> rfl

theorem Stocked.answered (order : ∀ d, s.device = some d → d.hostOrder = some s.codec.order) {errand : Errand}
    {ending : Ending} (serves : ∀ p, ending = some (.ok p) → p.artifact.program.Serves errand.aim.kernel errand.functions)
    (fits : (next s kernels (.answered errand ending)).2.2 ≠ .idle →
      Fits start past t keyOf s.cache.flights (.answered errand ending)) :
    Sustained start past keyOf t s (next s kernels (.answered errand ending)) := by
  cases ending with
  | none => exact stocked.still rfl trivial
  | some outcome =>
    cases outcome with
    | error e => exact stocked.still rfl (fits (by simp [next])).1.1
    | ok found =>
      exact stocked.still (served_cache s kernels found errand.aim)
        (served_fits order kernels (serves found rfl) fun active => (fits active).1)

def Phase.goesOn : Phase → Bool
  | .idle | .checked _ | .answered _ _ | .refused _ _ | .ran _ _ | .replaced _ => false
  | _ => true

omit stocked in
theorem next_goesOn (s : Session) (kernels : List Kernel) {phase : Phase} (on : phase.goesOn = true) :
    (next s kernels phase).2.2 ≠ .idle := by
  cases phase with
  | idle | checked | answered | refused | ran | replaced => cases on
  | signs call route =>
    dsimp only [next]
    rcases compared_parts call route (call.kernel.signature s.registry) with ⟨g, same⟩ | same <;> simp [same]
  | holds errand =>
    dsimp only [next]
    cases (s.cache.lookup errand.key).2 <;> simp [asked]
  | compares | wants | builds | waits =>
    dsimp only [next]
    split <;> simp
  | built | settled | latches | recovers | host => simp [next]

omit stocked in
theorem next_sustained (valid : start.session.registry.Valid) (kept : Kept start past keyOf) {phase : Phase}
    (here : (after start past).callers t = phase) :
    Sustained start (.go t :: past) keyOf t (after start past).session
      (next (after start past).session (after start past).kernels phase) := by
  have stocked : Stocked start (.go t :: past) keyOf (after start past).session.cache := kept.stocked.act (.go t)
  have moved : (after start (.go t :: past)).callers t =
      (next (after start past).session (after start past).kernels phase).2.2 := by
    rw [after_cons, act, take_self, here]
  have fits := kept.callers t
  rw [here] at fits
  have carried (active : (next (after start past).session (after start past).kernels phase).2.2 ≠ .idle) :
      Fits start (.go t :: past) t keyOf (after start past).session.cache.flights phase :=
    fits.act (by rwa [moved])
  have stays (on : phase.goesOn = true) := carried (next_goesOn _ _ on)
  -- The moment of this step belongs to the call.
  have now (on : phase.goesOn = true) : Busy start (.go t :: past) t past := by
    refine (busy_now ?_).act (by rw [moved]; exact next_goesOn _ _ on)
    rw [here]
    rintro rfl
    cases on
  cases phase with
  | idle | checked | ran => exact stocked.still rfl trivial
  | signs call route =>
    refine stocked.still rfl ?_
    dsimp only [next]
    rcases compared_parts call route (call.kernel.signature (after start past).session.registry) with ⟨g, same⟩ | same
    · rw [same]
      exact stays rfl
    · rw [same]
      exact stays rfl
  | compares call route signature generation =>
    refine stocked.still rfl ?_
    dsimp only [next]
    split
    · exact stays rfl
    · exact stays rfl
  | wants aim =>
    refine stocked.still rfl ?_
    dsimp only [next]
    split
    · exact ⟨stays rfl, past, now rfl, rfl⟩
    · exact stays rfl
  | holds errand => exact stocked.holds _ (stays rfl)
  | builds errand flight => exact stocked.builds _ kept.generator (stays rfl)
  | built errand flight ending => exact stocked.built _ (stays rfl)
  | settled errand flight ending => exact stocked.settled _ (stays rfl)
  | waits errand flight => exact stocked.waits _ (stays rfl)
  | answered errand ending =>
    refine stocked.answered _ kept.order ?_ carried
    intro p ended
    exact (fits.2 p ended).serves valid fits.1.2.taken
  | refused aim e =>
    have same : (next (after start past).session (after start past).kernels (.refused aim e)).1 = _ := retreats_session ..
    exact stocked.still (by rw [same]) (retreats_fits _ _ _ carried)
  | latches call signature generation => exact stocked.still rfl (stays rfl)
  | recovers call out =>
    refine stocked.still rfl ?_
    obtain ⟨started, computed⟩ := stays rfl
    refine ⟨started, ?_⟩
    rintro _ ⟨⟩
    exact computed
  | host call =>
    refine stocked.still rfl ⟨(stays rfl).2, ?_⟩
    intro out ended
    exact ⟨past, now rfl, call.args, .inl rfl, ended⟩
  | replaced name =>
    have flights := ((after start past).session.cache.invalidate_keeps stocked.unique name).flights
    exact ⟨keyOf, fun _ _ => rfl, Nat.le_of_eq flights.symm, stocked.invalidate name, trivial⟩

omit stocked in
theorem called_fits {number : Nat} {k : Kernel} {args : List Arg} (free : (after start past).callers t = .idle)
    (there : (after start past).kernels[number]? = some k) (flights : Nat) :
    Fits start (.start t (.run number args) :: past) t keyOf flights (called ⟨number, k, args⟩) := by
  have moved : (after start (.start t (.run number args) :: past)).callers t = called ⟨number, k, args⟩ := by
    simp [after_cons, act, free, enter, there]
  have started (active : called ⟨number, k, args⟩ ≠ .idle) :
      Started start (.start t (.run number args) :: past) t ⟨number, k, args⟩ :=
    ⟨past, busy_now (by rwa [moved]), free, there⟩
  unfold called at started ⊢
  dsimp only at started ⊢
  cases checked : k.checkArgs args with
  | error e =>
    rw [checked] at started
    exact ⟨started (by simp), by simp⟩
  | ok _ =>
    rw [checked] at started
    cases route : k.route with
    | pinned =>
      rw [route] at started
      exact ⟨checked, started (by simp)⟩
    | device =>
      rw [route] at started
      exact ⟨checked, started (by simp)⟩
    | fallback failed generation =>
      rw [route] at started
      exact ⟨checked, started (by simp)⟩

omit stocked in
theorem enter_sustained (kept : Kept start past keyOf) (free : (after start past).callers t = .idle) (command : Command) :
    Sustained start (.start t command :: past) keyOf t (after start past).session
      (enter (after start past).session (after start past).kernels command) := by
  have stocked : Stocked start (.start t command :: past) keyOf (after start past).session.cache := kept.stocked.act _
  obtain ⟨registry, _, same⟩ := enter_framed (after start past).session (after start past).kernels command
  refine stocked.still (by rw [same]) ?_
  unfold enter
  cases command with
  | compile body settings =>
    dsimp only
    split
    · trivial
    · split <;> trivial
  | run number args =>
    dsimp only
    split
    · trivial
    · rename_i k there
      exact called_fits free there _
  | shader number =>
    dsimp only
    split
    · trivial
    · split <;> trivial
  | register d =>
    dsimp only
    split <;> trivial

omit stocked in
theorem abandoned_sustained (kept : Kept start past keyOf) (t : Nat) :
    Sustained start (.abandon t :: past) keyOf t (after start past).session
      ((after start past).session, (after start past).kernels, abandoned ((after start past).callers t)) := by
  have stocked : Stocked start (.abandon t :: past) keyOf (after start past).session.cache := kept.stocked.act _
  have moved : (after start (.abandon t :: past)).callers t = abandoned ((after start past).callers t) := by
    rw [after_cons, act, take_self]
  refine stocked.still rfl ?_
  have fits := kept.callers t
  dsimp only
  cases here : (after start past).callers t with
  | builds errand flight =>
    rw [here] at fits moved
    obtain ⟨held, flies⟩ := fits.act (a := .abandon t) (by simp [moved, abandoned])
    exact ⟨held, flies, by simp⟩
  | idle => trivial
  | _ =>
    rw [here] at fits moved
    exact fits.act (by simp [moved, abandoned])

end

structure Steady (s after : Session) : Prop where
  generator : after.synthesize = s.synthesize
  codec : after.codec = s.codec
  order : after.device.map (·.hostOrder) = s.device.map (·.hostOrder)

theorem Framed.steady {s after : Session} (framed : Framed s after) : Steady s after := by
  obtain ⟨cache, device, rfl, order⟩ := framed
  exact ⟨rfl, rfl, order⟩

theorem Steady.ordered {s after : Session} (steady : Steady s after)
    (order : ∀ d, s.device = some d → d.hostOrder = some s.codec.order) (d : Device) (present : after.device = some d) :
    d.hostOrder = some after.codec.order := by
  have same := steady.order
  rw [present] at same
  obtain ⟨old, before, kept⟩ := Option.map_eq_some_iff.mp same.symm
  rw [steady.codec, ← order old before, kept]

theorem Kept.took {keyOf : Nat → Signature} (kept : Kept start past keyOf) {a : Act} {turn : Turn}
    (acts : (after start past).act a = (after start past).take t turn) (steady : Steady (after start past).session turn.1)
    (sustained : Sustained start (a :: past) keyOf t (after start past).session turn) :
    ∃ keys, Kept start (a :: past) keys := by
  obtain ⟨keys, agree, more, stocked, fits⟩ := sustained
  have step : after start (a :: past) = (after start past).take t turn := acts
  refine ⟨keys, ?_, ?_, ?_, ?_⟩
  · rw [step, take_session, steady.generator]
    exact kept.generator
  · rw [step, take_session]
    exact steady.ordered kept.order
  · rwa [step, take_session]
  · intro other
    by_cases moved : other = t
    · subst moved
      rwa [step, take_session, take_self]
    · have same : (after start (a :: past)).callers other = (after start past).callers other := by
        rw [step, take_other _ moved]
      have stays := ((kept.callers other).stays same).grow more agree
      rwa [step] at stays ⊢

theorem Kept.aside {keyOf : Nat → Signature} (kept : Kept start past keyOf) {a : Act} {session : Session}
    (acts : (after start past).act a = { after start past with session := session })
    (steady : Steady (after start past).session session) (stocked : Stocked start past keyOf session.cache)
    (flights : session.cache.flights = (after start past).session.cache.flights) : Kept start (a :: past) keyOf := by
  have step : after start (a :: past) = { after start past with session := session } := acts
  refine ⟨?_, ?_, ?_, ?_⟩
  · rw [step]
    exact steady.generator.trans kept.generator
  · rw [step]
    exact steady.ordered kept.order
  · rw [step]
    exact stocked.act a
  · intro t
    have same : (after start (a :: past)).callers t = (after start past).callers t := by rw [step]
    have stays := (kept.callers t).stays same
    rw [step] at stays ⊢
    dsimp only at stays ⊢
    rwa [flights]

theorem act_kept (valid : start.session.registry.Valid) {keyOf : Nat → Signature} (kept : Kept start past keyOf) (a : Act) :
    ∃ keys, Kept start (a :: past) keys := by
  have still : Steady (after start past).session (after start past).session := ⟨rfl, rfl, rfl⟩
  cases a with
  | start t command =>
    by_cases free : (after start past).callers t = .idle
    · obtain ⟨registry, _, same⟩ := enter_framed (after start past).session (after start past).kernels command
      refine kept.took (by rw [act, free]) ?_ (enter_sustained kept free command)
      rw [same]
      exact ⟨rfl, rfl, rfl⟩
    · exact ⟨keyOf, kept.aside (act_busy free command) still kept.stocked rfl⟩
  | go t => exact kept.took rfl (next_framed _ _ _).steady (next_sustained valid kept rfl)
  | abandon t => exact kept.took rfl still (abandoned_sustained kept t)
  | define d => exact ⟨keyOf, kept.aside rfl ⟨rfl, rfl, rfl⟩ kept.stocked rfl⟩
  | invalidate name =>
    exact ⟨keyOf, kept.aside rfl ⟨rfl, rfl, rfl⟩ (kept.stocked.invalidate name)
      (Cache.invalidate_keeps _ kept.stocked.unique name).flights⟩
  | clear =>
    refine ⟨keyOf, kept.aside rfl ⟨rfl, rfl, rfl⟩ (kept.stocked.keeps (Cache.clear_keeps _ kept.stocked.unique) ?_) rfl⟩
    intro key p member
    exact (List.mem_filter.mp member).1
  | faults switches | lose =>
    refine ⟨keyOf, kept.aside rfl ⟨rfl, rfl, ?_⟩ kept.stocked rfl⟩
    dsimp only [Session.step]
    cases (after start past).session.device <;> rfl
  | restore =>
    refine ⟨keyOf, kept.aside rfl ⟨rfl, rfl, ?_⟩ kept.stocked rfl⟩
    dsimp only [Session.step]
    cases (after start past).session.device with
    | none => rfl
    | some d =>
      rw [Option.map_some, Option.map_some, Option.map_some, Device.restore]
      split <;> rfl

theorem after_kept (device : Option Device) (order : ByteOrder) (strict : Bool) (capacity : Option Nat) (past : List Act) :
    ∃ keyOf, Kept (new device order strict capacity) past keyOf := by
  induction past with
  | nil =>
    have sound := Session.new_sound device order strict capacity
    refine ⟨fun _ => ⟨[], [], [], ⟨[], []⟩⟩, sound.generator, sound.order, ⟨?_, nofun, nofun, nofun⟩, fun _ => trivial⟩
    exact List.nodup_nil
  | cons a past ih =>
    obtain ⟨keyOf, kept⟩ := ih
    exact act_kept (Registry.new_valid strict) kept a

-- A program is asked for under a key that was taken together with the helpers, and whoever built it under that
-- key built it from the same definitions.
theorem runs_see_one_moment (device : Option Device) (order : ByteOrder) (strict : Bool) (capacity : Option Nat)
    (past : List Act) (t : Nat) (call : Call) (out : Output)
    (ended : (after (new device order strict capacity) past).callers t = .ran call (.ok out)) :
    let moment := after (new device order strict capacity)
    ∃ before mid, .start t (.run call.number call.args) :: before <:+ mid ∧ mid <:+ past ∧
      -- The call began after this moment, and the caller has been in it since.
      (moment before).callers t = .idle ∧ (moment before).kernels[call.number]? = some call.kernel ∧
      (∀ later, .start t (.run call.number call.args) :: before <:+ later → later <:+ past →
        (moment later).callers t ≠ .idle) ∧
      -- All of the result is computed with the helpers as they were at one moment of it.
      ∃ args, (args = call.args ∨ args = call.args.map Arg.rounded) ∧
        (Host.run (call.kernel.functions (moment mid).session.registry) call.kernel.body call.kernel.types
          call.kernel.grid args).map Output.ofTensor = .ok out := by
  intro moment
  obtain ⟨keyOf, kept⟩ := after_kept device order strict capacity past
  have fits := kept.callers t
  rw [ended] at fits
  obtain ⟨⟨before, busy, free, there⟩, computed⟩ := fits
  obtain ⟨mid, during, result⟩ := computed out rfl
  refine ⟨before, mid, ?_, during.within, free, there, busy.during, result⟩
  -- The caller was idle before the call, so the moment is not one of those.
  rcases List.suffix_or_suffix_of_suffix busy.within during.within with inside | outside
  · exact inside
  · rcases List.suffix_cons_iff.mp outside with same | earlier
    · exact same ▸ List.suffix_rfl
    · exact absurd free (during.during before earlier ((List.suffix_cons _ _).trans busy.within))

-- A kernel that calls a helper, and a second definition of that helper.
def twice : Kernel := doubledKernel "x" .device

def undoubled : Definition := .make "doubled" (.kernel ⟨[⟨"x", none⟩], 0, [.ret (.param 0)]⟩) none none

def compileTwice : Command := .compile twice.body { dimensions := some [2] }

def stamped : Snapshot := ⟨[{ doubled with generation := 8 }], []⟩

def twiceErrand : Errand := ⟨.compile (doubledKernel "x" .pinned) (twice.signatureOf stamped), stamped⟩

def twiceProgram (text : String) : CachedProgram Signature Compiled :=
  ⟨twice.signatureOf stamped, stamped.names,
    ⟨⟨Manifest.ofTypes twice.types twice.grid Shader.workgroupSize, twice.request stamped⟩, text⟩⟩

def twiceCache (text : String) : ProgramCache :=
  ((Cache.new none).lookup twiceErrand.key).1.finish twiceErrand.key 0 (.ok (twiceProgram text))

def twiceLoaded (s : Session) (text : String) : Session :=
  { s with cache := twiceCache text, device := some { hostOrder := some .little, built := 1 } }

def doubledSession : Session where
  registry := (Registry.new false).store doubled
  cache := Cache.new none
  device := some { hostOrder := some .little }
  codec := ⟨.little⟩
  synthesize := Shader.generate

theorem doubled_registered : after (new (some {}) .little false none) [.start 0 (.register doubled)] =
    (new (some {}) .little false none).take 0 (doubledSession, [], .idle) := rfl

theorem twice_functions (route : Route) : (doubledKernel "x" route).functions doubledSession.registry = stamped :=
  doubled_functions "x" route _ rfl

theorem twice_held : Alone 2 (enter doubledSession [] compileTwice) (doubledSession, [], .holds twiceErrand) := by
  have named : (doubledKernel "x" .pinned).signature doubledSession.registry = twice.signatureOf stamped := by
    rw [Kernel.signature, twice_functions]
    rfl
  have signed : next doubledSession [] (.checked (doubledKernel "x" .pinned)) =
      (doubledSession, [], .wants (.compile (doubledKernel "x" .pinned) (twice.signatureOf stamped))) := by
    rw [next, named]
  have holds := hold_alone (s := doubledSession) rfl []
    (.compile (doubledKernel "x" .pinned) (twice.signatureOf stamped))
  rw [Aim.kernel, twice_functions] at holds
  exact (Alone.once signed).trans holds

theorem twice_led {s : Session} (generator : s.synthesize = Shader.generate)
    (present : s.device = some { hostOrder := some .little }) (empty : s.cache = Cache.new none) :
    ∃ text, Alone 5 (s, [], .holds twiceErrand) (twiceLoaded s text, [twice], .idle) := by
  have made : ∃ text, s.build { hostOrder := some .little } (doubledKernel "x" .pinned) stamped =
      ({ hostOrder := some .little, built := 1 }, .ok (twiceProgram text)) := by
    rcases s.build_parts generator { hostOrder := some .little } (doubledKernel "x" .pinned) stamped with
      ⟨_, _, ⟨_, refused⟩ | down⟩ | built
    · have expressible : (Shader.build (twice.request stamped)).isOk = true := by decide +kernel
      rw [show Shader.build (twice.request stamped) = _ from refused] at expressible
      cases expressible
    · cases down
    · exact built
  obtain ⟨text, built⟩ := made
  have leads : (s.cache.lookup twiceErrand.key).2 = .leads 0 := by
    rw [empty]
    rfl
  have led := lead_alone present [] leads
  dsimp only at led
  rw [show s.build _ twiceErrand.aim.kernel twiceErrand.functions = _ from built, empty] at led
  exact ⟨text, led.trans (.once rfl)⟩

def twiceCall : Call := ⟨0, twice, [.array ⟨[2], .f64 #[⟨0x3ff0000000000000⟩, ⟨0x4000000000000000⟩]⟩]⟩

def runErrand : Errand := ⟨.run twiceCall .device (twice.signatureOf stamped), stamped⟩

theorem twice_wanted (text : String) :
    Alone 2 (enter (twiceLoaded doubledSession text) [twice] (.run 0 twiceCall.args))
      (twiceLoaded doubledSession text, [twice], .holds runErrand) := by
  have functions : twice.functions (twiceLoaded doubledSession text).registry = stamped := twice_functions .device
  have signed : next (twiceLoaded doubledSession text) [twice] (.signs twiceCall .device) =
      (twiceLoaded doubledSession text, [twice], .wants (.run twiceCall .device (twice.signatureOf stamped))) := by
    rw [← functions]
    rfl
  have holds := hold_alone (s := twiceLoaded doubledSession text) rfl [twice]
    (.run twiceCall .device (twice.signatureOf stamped))
  rw [Aim.kernel, twiceCall, functions] at holds
  exact (Alone.once signed).trans holds

-- Caller 0 has compiled the kernel, and caller 1 has taken the helpers for a run of it.
def twiceReady (text : String) : Crowd :=
  ((new (some {}) .little false none).take 0 (twiceLoaded doubledSession text, [twice], .idle)).take 1
    (twiceLoaded doubledSession text, [twice], .holds runErrand)

theorem twiceReady_reached : ∃ text, ∀ more, after (new (some {}) .little false none)
    (more ++ (List.replicate 2 (.go 1) ++ [.start 1 (.run 0 twiceCall.args)]) ++
      (List.replicate 7 (.go 0) ++ [.start 0 compileTwice]) ++ [.start 0 (.register doubled)]) = after (twiceReady text) more := by
  obtain ⟨text, led⟩ := twice_led (s := doubledSession) rfl rfl rfl
  have compiled := start_alone (w := (new (some {}) .little false none).take 0 (doubledSession, [], .idle)) (t := 0)
    rfl (twice_held.trans led)
  rw [take_take] at compiled
  have wanted := start_alone
    (w := (new (some {}) .little false none).take 0 (twiceLoaded doubledSession text, [twice], .idle)) (t := 1)
    rfl (twice_wanted text)
  refine ⟨text, fun more => ?_⟩
  rw [after_append, doubled_registered, after_append, compiled, after_append, wanted]
  rfl

theorem execute_eq {s t : Session} (codec : s.codec = t.codec) : s.execute = t.execute := by
  unfold Session.execute
  rw [codec]

theorem twice_hit {s : Session} {text : String} (cached : s.cache = twiceCache text) :
    (next s [twice] (.holds runErrand)).2.2 = .answered runErrand (some (.ok (twiceProgram text))) := by
  have found : s.cache.slot? runErrand.key = some (.ready (twiceProgram text)) := by
    have same : runErrand.key = twiceErrand.key := rfl
    rw [cached, same]
    simp [twiceCache, Cache.slot?, Cache.finish, Cache.publish, Cache.settle, Cache.lookup, Cache.new, Cache.withSlot]
  simp only [next, Cache.lookup, found, asked]

theorem twice_result (s : Session) (codec : s.codec = ⟨.little⟩) (text : String) : ∃ out,
    (s.execute { hostOrder := some .little, built := 1 } twice (twiceProgram text).artifact.program
      twiceCall.args).2 = .ok out ∧ out.words = #[⟨0x40000000⟩, ⟨0x40800000⟩] := by
  have same : s.execute = doubledSession.execute := execute_eq codec
  have words : (doubledSession.execute { hostOrder := some .little, built := 1 } twice (twiceProgram "").artifact.program
      twiceCall.args).2.toOption.map Output.words = some #[⟨0x40000000⟩, ⟨0x40800000⟩] := by
    decide +kernel
  rw [same, show (twiceProgram text).artifact.program = (twiceProgram "").artifact.program from rfl]
  generalize doubledSession.execute _ twice _ twiceCall.args = ran at words
  obtain ⟨_, result⟩ := ran
  cases result with
  | error e => cases words
  | ok out => exact ⟨out, rfl, Option.some.inj words⟩

-- Caller 0 has compiled the kernel, and caller 1 has taken the helpers for a run, when caller 2 replaces
-- the one it calls. The run is served just before the old programs are dropped.
def replacedMidway : List Act :=
  [.go 1, .go 2, .go 1, .start 2 (.register undoubled)] ++
    (List.replicate 2 (.go 1) ++ [.start 1 (.run 0 twiceCall.args)]) ++
    (List.replicate 7 (.go 0) ++ [.start 0 compileTwice]) ++ [.start 0 (.register doubled)]

theorem replacedMidway_ends : ∃ out,
    (after (new (some {}) .little false none) replacedMidway).callers 1 = .ran twiceCall (.ok out) ∧
    out.words = #[⟨0x40000000⟩, ⟨0x40800000⟩] := by
  obtain ⟨text, ready⟩ := twiceReady_reached
  rw [replacedMidway, ready]
  let replaced : Session := { twiceLoaded doubledSession text with registry := doubledSession.registry.store undoubled }
  let dropped : Session :=
    { replaced with cache := (((twiceCache text).lookup runErrand.key).1.invalidate "doubled").1 }
  have last : (after (twiceReady text) [.go 1, .go 2, .go 1, .start 2 (.register undoubled)]).callers 1 =
      (next dropped [twice] (next replaced [twice] (.holds runErrand)).2.2).2.2 := rfl
  obtain ⟨out, ended, words⟩ := twice_result dropped rfl text
  refine ⟨out, ?_, words⟩
  rw [last, twice_hit rfl]
  exact served_ok rfl [twice] ended _

theorem replacedMidway_sees_one_moment :
    let moment := after (new (some {}) .little false none)
    ∃ out, (moment replacedMidway).callers 1 = .ran twiceCall (.ok out) ∧ out.words = #[⟨0x40000000⟩, ⟨0x40800000⟩] ∧
      ∃ before mid, .start 1 (.run 0 twiceCall.args) :: before <:+ mid ∧ mid <:+ replacedMidway ∧
        ∃ args, (args = twiceCall.args ∨ args = twiceCall.args.map Arg.rounded) ∧
          (Host.run (twice.functions (moment mid).session.registry) twice.body twice.types twice.grid args).map
            Output.ofTensor = .ok out := by
  obtain ⟨out, ended, words⟩ := replacedMidway_ends
  obtain ⟨before, mid, began, within, _, _, _, result⟩ := runs_see_one_moment _ _ _ _ _ _ _ _ ended
  exact ⟨out, ended, words, before, mid, began, within, result⟩

end GridKernel.Crowd
