import GridKernel.Proofs.Cache.Flights
import GridKernel.Proofs.Session.Effects
import GridKernel.Proofs.Session.Redefinition

namespace GridKernel

namespace Crowd

structure Call where
  number : Nat
  kernel : Kernel
  args : List Arg

-- What a program is wanted for. A compile and a run have taken the key under which they will
-- remember a failure, and a run has read the route.
inductive Aim where
  | compile (made : Kernel) (signature : Signature)
  | run (call : Call) (route : Route) (signature : Signature)
  | shader (k : Kernel)

def Aim.kernel : Aim → Kernel
  | .compile made _ => made
  | .run call _ _ => call.kernel
  | .shader k => k

def Aim.absent : Aim → KernelError
  | .run _ _ _ => .executionFailed .noContext
  | _ => .compilationFailed .noContext

-- A request to the cache. The key belongs to the helpers it was taken with.
structure Errand where
  aim : Aim
  functions : Snapshot

def Errand.key (e : Errand) : Signature := e.aim.kernel.signatureOf e.functions

abbrev Ending := Flights.Ending Signature Compiled

inductive Phase where
  | idle
  | checked (made : Kernel)
  | signs (call : Call) (route : Route)
  -- The key is still the one that failed, so the generation of the device decides.
  | compares (call : Call) (route : Route) (signature : Signature) (generation : Nat)
  | wants (aim : Aim)
  | holds (errand : Errand)
  | builds (errand : Errand) (flight : Nat)
  | built (errand : Errand) (flight : Nat) (ending : Ending)
  | settled (errand : Errand) (flight : Nat) (ending : Ending)
  | waits (errand : Errand) (flight : Nat)
  | answered (errand : Errand) (ending : Ending)
  | refused (aim : Aim) (e : KernelError)
  | latches (call : Call) (signature : Signature) (generation : Nat)
  | recovers (call : Call) (out : Output)
  | host (call : Call)
  | ran (call : Call) (result : Except KernelError Output)
  -- A helper was replaced, and the programs built with the old one are still there.
  | replaced (name : String)

abbrev Turn := Session × List Kernel × Phase

def called (call : Call) : Phase :=
  match call.kernel.checkArgs call.args with
  | .error e => .ran call (.error (.invalidArgument e))
  | .ok () =>
    match call.kernel.route with
    | .pinned => .host call
    | route => .signs call route

-- A latch with another key is open at once.
def compared (call : Call) (route : Route) (signature : Signature) : Phase :=
  match route with
  | .fallback failed generation =>
    if signature = failed then .compares call route signature generation else .wants (.run call route signature)
  | _ => .wants (.run call route signature)

def asked (errand : Errand) : Lookup Signature Compiled → Phase
  | .hit found => .answered errand (some (.ok found))
  | .joined flight => .waits errand flight
  | .leads flight => .builds errand flight

def served (s : Session) (kernels : List Kernel) (found : CachedProgram Signature Compiled) : Aim → Turn
  | .compile made _ => (s, kernels ++ [{ made with route := .device }], .idle)
  | .shader _ => (s, kernels, .idle)
  | .run call route signature =>
    match s.device with
    | none => (s, kernels, .refused (.run call route signature) (.executionFailed .noContext))
    | some device =>
      match s.execute device call.kernel found.artifact.program call.args with
      | (device, .error e) => ({ s with device := some device }, kernels, .refused (.run call route signature) e)
      | (device, .ok out) =>
        ({ s with device := some device }, kernels, if route = .device then .ran call (.ok out) else .recovers call out)

def retreats (s : Session) (kernels : List Kernel) (e : KernelError) : Aim → Turn
  | .compile made signature =>
    (s, if Session.fallsBack made e then kernels ++ [s.latch made signature] else kernels, .idle)
  | .shader _ => (s, kernels, .idle)
  | .run call _ signature =>
    if Session.fallsBack call.kernel e then
      match s.generation? with
      | some generation => (s, kernels, .latches call signature generation)
      | none => (s, kernels, .host call)
    else (s, kernels, .ran call (.error e))

def rerouted (kernels : List Kernel) (number : Nat) (route : Route) : List Kernel :=
  kernels.modify number fun k => { k with route := route }

-- One step of a caller that is under way. Who waits for an outcome that is not there yet stays.
def next (s : Session) (kernels : List Kernel) : Phase → Turn
  | .idle => (s, kernels, .idle)
  | .checked made => (s, kernels, .wants (.compile made (made.signature s.registry)))
  | .signs call route => (s, kernels, compared call route (call.kernel.signature s.registry))
  | .compares call route signature generation =>
    (s, kernels, if s.generation? = some generation then .host call else .wants (.run call route signature))
  | .wants aim =>
    (s, kernels, if s.device.isSome then .holds ⟨aim, aim.kernel.functions s.registry⟩
      else .refused aim aim.absent)
  | .holds errand =>
    ({ s with cache := (s.cache.lookup errand.key).1 }, kernels, asked errand (s.cache.lookup errand.key).2)
  | .builds errand flight =>
    match s.device with
    | none => (s, kernels, .builds errand flight)
    | some device =>
      let (device, outcome) := s.build device errand.aim.kernel errand.functions
      ({ s with device := some device }, kernels, .built errand flight (some outcome))
  | .built errand flight ending =>
    ({ s with cache := s.cache.settle errand.key (Flights.delivered ending) }, kernels, .settled errand flight ending)
  | .settled errand flight ending =>
    ({ s with cache := s.cache.publish flight (Flights.delivered ending) }, kernels, .answered errand ending)
  | .waits errand flight =>
    match s.cache.received? flight with
    | none => (s, kernels, .waits errand flight)
    | some outcome => (s, kernels, .answered errand (some outcome))
  | .answered _ none => (s, kernels, .idle)
  | .answered errand (some (.error e)) => (s, kernels, .refused errand.aim e)
  | .answered errand (some (.ok found)) => served s kernels found errand.aim
  | .refused aim e => retreats s kernels e aim
  | .latches call signature generation =>
    (s, rerouted kernels call.number (.fallback signature generation), .host call)
  | .recovers call out => (s, rerouted kernels call.number .device, .ran call (.ok out))
  | .host call => (s, kernels, .ran call (s.runHost call.kernel call.args))
  | .ran _ _ => (s, kernels, .idle)
  | .replaced name => ({ s with cache := (s.cache.invalidate name).1 }, kernels, .idle)

inductive Command where
  | compile (body : Body) (settings : Settings)
  | run (number : Nat) (args : List Arg)
  | shader (number : Nat)
  | register (d : Definition)

-- The first step of an idle caller. A run reads its route here, and a registration writes.
def enter (s : Session) (kernels : List Kernel) : Command → Turn
  | .compile body settings =>
    match Kernel.make body settings with
    | .error _ => (s, kernels, .idle)
    | .ok made => if made.mode = .cpu then (s, kernels ++ [made], .idle) else (s, kernels, .checked made)
  | .run number args =>
    match kernels[number]? with
    | none => (s, kernels, .idle)
    | some k => (s, kernels, called ⟨number, k, args⟩)
  | .shader number =>
    match kernels[number]? with
    | none => (s, kernels, .idle)
    | some k => (s, kernels, if k.mode = .cpu then .idle else .wants (.shader k))
  | .register d =>
    match s.registry.register d with
    | (registry, .error _) => ({ s with registry := registry }, kernels, .idle)
    | (registry, .ok .added) => ({ s with registry := registry }, kernels, .idle)
    | (registry, .ok .replaced) => ({ s with registry := registry }, kernels, .replaced d.name)

-- A build that is given up ends without an outcome.
def abandoned : Phase → Phase
  | .builds errand flight => .built errand flight none
  | phase => phase

inductive Act where
  | start (caller : Nat) (command : Command)
  | go (caller : Nat)
  | abandon (caller : Nat)
  -- Others share the registry and the cache.
  | define (d : Definition)
  | invalidate (name : String)
  | clear
  | faults (switches : Faults)
  | lose
  | restore

end Crowd

structure Crowd where
  session : Session
  -- The kernels that were compiled, with the routes they have now.
  kernels : List Kernel
  callers : Nat → Crowd.Phase

namespace Crowd

def new (device : Option Device) (order : ByteOrder) (strict : Bool) (capacity : Option Nat) : Crowd :=
  ⟨Session.new device order strict capacity Shader.generate, [], fun _ => .idle⟩

def take (w : Crowd) (t : Nat) (turn : Turn) : Crowd :=
  ⟨turn.1, turn.2.1, fun other => if other = t then turn.2.2 else w.callers other⟩

-- Any one thing that can happen. What is not possible now changes nothing.
def act (w : Crowd) : Act → Crowd
  | .start t command =>
    match w.callers t with
    | .idle => w.take t (enter w.session w.kernels command)
    | _ => w
  | .go t => w.take t (next w.session w.kernels (w.callers t))
  | .abandon t => w.take t (w.session, w.kernels, abandoned (w.callers t))
  | .define d => { w with session := w.session.step (.define d) }
  | .invalidate name => { w with session.cache := (w.session.cache.invalidate name).1 }
  | .clear => { w with session.cache := w.session.cache.clear }
  | .faults switches => { w with session := w.session.step (.faults switches) }
  | .lose => { w with session := w.session.step .lose }
  | .restore => { w with session := w.session.step .restore }

-- Any interleaving, from the latest act back. The moments before are its suffixes.
def after (start : Crowd) : List Act → Crowd
  | [] => start
  | a :: past => (after start past).act a

theorem after_cons (start : Crowd) (a : Act) (past : List Act) : after start (a :: past) = (after start past).act a := rfl

theorem after_append (start : Crowd) (later earlier : List Act) :
    after start (later ++ earlier) = after (after start earlier) later := by
  induction later with
  | nil => rfl
  | cons a later ih => rw [List.cons_append, after_cons, ih, after_cons]

@[simp]
theorem take_session (w : Crowd) (t : Nat) (turn : Turn) : (w.take t turn).session = turn.1 := rfl

@[simp]
theorem take_self (w : Crowd) (t : Nat) (turn : Turn) : (w.take t turn).callers t = turn.2.2 := if_pos rfl

theorem take_other (w : Crowd) {t other : Nat} (apart : other ≠ t) (turn : Turn) :
    (w.take t turn).callers other = w.callers other := if_neg apart

theorem act_busy {w : Crowd} {t : Nat} (busy : w.callers t ≠ .idle) (command : Command) : w.act (.start t command) = w := by
  unfold act
  dsimp only
  split
  · rename_i idle
    exact absurd idle busy
  · rfl

-- What a step never touches: the registry, the codec, the generator, and the byte order of the device.
def Framed (s after : Session) : Prop :=
  ∃ cache device, after = { s with cache := cache, device := device } ∧
    device.map (·.hostOrder) = s.device.map (·.hostOrder)

theorem Framed.cache (s : Session) (cache : ProgramCache) : Framed s { s with cache := cache } := ⟨cache, s.device, rfl, rfl⟩

theorem Framed.device {s : Session} {device after : Device} (present : s.device = some device)
    (order : after.hostOrder = device.hostOrder) : Framed s { s with device := some after } :=
  ⟨s.cache, some after, rfl, by rw [present, Option.map_some, Option.map_some, order]⟩

theorem compared_parts (call : Call) (route : Route) (signature : Signature) :
    (∃ generation, compared call route signature = .compares call route signature generation) ∨
      compared call route signature = .wants (.run call route signature) := by
  unfold compared
  split
  · split
    · exact .inl ⟨_, rfl⟩
    · exact .inr rfl
  · exact .inr rfl

theorem served_framed (s : Session) (kernels : List Kernel) (found : CachedProgram Signature Compiled) (aim : Aim) :
    Framed s (served s kernels found aim).1 := by
  cases aim with
  | compile | shader => exact Framed.cache s s.cache
  | run call route signature =>
    unfold served
    dsimp only
    cases present : s.device with
    | none => exact Framed.cache s s.cache
    | some device =>
      have order := s.execute_hostOrder device call.kernel found.artifact.program call.args
      dsimp only
      generalize s.execute device call.kernel found.artifact.program call.args = ran at order
      obtain ⟨after, result⟩ := ran
      cases result <;> exact Framed.device present order

theorem served_ok {s : Session} {device : Device} (present : s.device = some device) (kernels : List Kernel)
    {found : CachedProgram Signature Compiled} {call : Call} {out : Output}
    (ended : (s.execute device call.kernel found.artifact.program call.args).2 = .ok out) (signature : Signature) :
    (served s kernels found (.run call .device signature)).2.2 = .ran call (.ok out) := by
  unfold served
  dsimp only
  rw [present]
  dsimp only
  generalize s.execute device call.kernel found.artifact.program call.args = ran at ended
  obtain ⟨_, result⟩ := ran
  cases ended
  rfl

theorem retreats_session (s : Session) (kernels : List Kernel) (e : KernelError) (aim : Aim) :
    (retreats s kernels e aim).1 = s := by
  cases aim with
  | compile | shader => rfl
  | run call route signature =>
    unfold retreats
    dsimp only
    split
    · split <;> rfl
    · rfl

theorem next_framed (s : Session) (kernels : List Kernel) (phase : Phase) : Framed s (next s kernels phase).1 := by
  have still : Framed s s := Framed.cache s s.cache
  cases phase with
  | builds errand flight =>
    unfold next
    dsimp only
    cases present : s.device with
    | none => exact still
    | some device =>
      dsimp only
      rcases s.build_device device errand.aim.kernel errand.functions with ⟨e, failed⟩ | ⟨program, made⟩
      · rw [failed]
        exact Framed.device present rfl
      · rw [made]
        exact Framed.device present rfl
  | holds | built | settled | replaced => exact Framed.cache s _
  | waits errand flight =>
    unfold next
    dsimp only
    split <;> exact still
  | answered errand ending =>
    cases ending with
    | none => exact still
    | some outcome =>
      cases outcome with
      | error e => exact still
      | ok found => exact served_framed s kernels found errand.aim
  | refused aim e =>
    have same : (next s kernels (.refused aim e)).1 = s := retreats_session s kernels e aim
    rw [same]
    exact still
  | _ => exact still

theorem next_registry (s : Session) (kernels : List Kernel) (phase : Phase) :
    (next s kernels phase).1.registry = s.registry := by
  obtain ⟨_, _, same, _⟩ := next_framed s kernels phase
  rw [same]

theorem enter_framed (s : Session) (kernels : List Kernel) (command : Command) :
    ∃ registry, s.registry.Later registry ∧ (enter s kernels command).1 = { s with registry := registry } := by
  have still : ∃ registry, s.registry.Later registry ∧ s = { s with registry := registry } := ⟨_, .refl, rfl⟩
  unfold enter
  cases command with
  | compile body settings =>
    dsimp only
    split
    · exact still
    · split <;> exact still
  | run number args =>
    dsimp only
    split <;> exact still
  | shader number =>
    dsimp only
    split <;> exact still
  | register d =>
    dsimp only
    rcases s.registry.register_cases d with ⟨e, refused⟩ | ⟨how, accepted, _⟩
    · rw [refused]
      exact still
    · rw [accepted]
      cases how <;> exact ⟨_, .register .refl accepted, rfl⟩

theorem act_later (w : Crowd) (a : Act) : w.session.registry.Later (w.act a).session.registry := by
  cases a with
  | start t command =>
    unfold act
    dsimp only
    split
    · obtain ⟨registry, later, same⟩ := enter_framed w.session w.kernels command
      rw [take_session, same]
      exact later
    · exact .refl
  | go t =>
    unfold act
    dsimp only
    rw [take_session, next_registry]
    exact .refl
  | define d =>
    unfold act
    dsimp only [Session.step]
    rcases w.session.registry.register_cases d with ⟨e, refused⟩ | ⟨how, accepted, _⟩
    · rw [refused]
      exact .refl
    · rw [accepted]
      exact .register .refl accepted
  | _ => exact .refl

theorem moment_later {start : Crowd} {mid past : List Act} (within : mid <:+ past) :
    (after start mid).session.registry.Later (after start past).session.registry := by
  induction past with
  | nil =>
    rw [List.suffix_nil.mp within]
    exact .refl
  | cons a past ih =>
    rcases List.suffix_cons_iff.mp within with rfl | inside
    · exact .refl
    · exact (ih inside).trans (act_later _ a)

theorem moment_valid {start : Crowd} (valid : start.session.registry.Valid) (past : List Act) :
    (after start past).session.registry.Valid :=
  (moment_later (List.nil_suffix (l := past))).valid valid

end Crowd
end GridKernel
