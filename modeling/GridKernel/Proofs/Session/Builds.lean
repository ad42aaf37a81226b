import GridKernel.Proofs.Session.Routes
import Mathlib.Data.List.Dedup

namespace GridKernel

-- A stamp of the key was given and is out of use.
def Registry.Outdates (r : Registry) (key : Signature) : Prop :=
  ∃ name stamp, (name, stamp) ∈ key.functions.stamps ∧ stamp < r.nextGeneration ∧
    ∀ d, r.get? name = some d → d.generation ≠ stamp

namespace Registry

theorem Outdates.later {r q : Registry} {key : Signature} (outdates : r.Outdates key) (later : r.Later q) :
    q.Outdates key := by
  obtain ⟨name, stamp, listed, given, unused⟩ := outdates
  refine ⟨name, stamp, listed, Nat.lt_of_lt_of_le given later.nextGeneration_le, ?_⟩
  rcases later.get? name with same | ⟨e, newer, above⟩
  · rw [same]
    exact unused
  · intro d found
    cases found.symm.trans newer
    exact Nat.ne_of_gt (Nat.lt_of_lt_of_le given above)

theorem outdates_store (r : Registry) (d : Definition) {key : Signature} {stamp : Nat}
    (listed : (d.name, stamp) ∈ key.functions.stamps) (given : stamp < r.nextGeneration) : (r.store d).Outdates key := by
  refine ⟨d.name, stamp, listed, Nat.lt_succ_of_lt given, ?_⟩
  intro e found
  cases found.symm.trans (r.get?_store_self d)
  exact Nat.ne_of_gt given

theorem not_outdates (r : Registry) (k : Kernel) : ¬ r.Outdates (k.signature r) := by
  rintro ⟨name, stamp, listed, _, unused⟩
  obtain ⟨d, member, same⟩ := List.mem_map.mp listed
  cases same
  exact unused d ((r.mem_snapshot_functions k.body.calls d).mp member).1 rfl

end Registry

namespace Cache

variable {κ α : Type} [DecidableEq κ] {c : Cache κ α} {key : κ}

theorem mem_finish_error (absent : c.slot? key = none) (flight : Nat) (e : KernelError) (entry : κ × Slot κ α) :
    entry ∈ ((c.lookup key).1.finish key flight (.error e)).slots ↔ entry ∈ c.slots := by
  have apart := (c.slot?_eq_none key).mp absent
  obtain ⟨_, _, after⟩ := lookup_leads (lookup_absent absent)
  rw [after]
  change entry ∈ without key (withSlot key _ c.slots) ↔ _
  rw [mem_without, mem_withSlot]
  constructor
  · rintro ⟨rfl | ⟨old, _⟩, other⟩
    · exact absurd rfl other
    · exact old
  · exact fun old => ⟨.inr ⟨old, apart entry old⟩, apart entry old⟩

theorem finish_ok (unbounded : c.capacity = none) (absent : c.slot? key = none) (flight : Nat) (program : CachedProgram κ α) :
    (∀ entry, entry ∈ ((c.lookup key).1.finish key flight (.ok program)).slots ↔
      entry = (key, .ready program) ∨ entry ∈ c.slots) ∧
    ((c.lookup key).1.finish key flight (.ok program)).capacity = c.capacity ∧
    ((c.lookup key).1.finish key flight (.ok program)).stats.compiles = c.stats.compiles + 1 := by
  have apart := (c.slot?_eq_none key).mp absent
  obtain ⟨_, _, after⟩ := lookup_leads (lookup_absent absent)
  rw [after]
  simp only [finish, publish, settle, unbounded, and_true]
  intro entry
  rw [mem_withSlot, mem_withSlot]
  constructor
  · rintro (new | ⟨rfl | ⟨old, _⟩, other⟩)
    · exact .inl new
    · exact absurd rfl other
    · exact .inr old
  · rintro (new | old)
    · exact .inl new
    · exact .inr ⟨.inr ⟨old, apart entry old⟩, apart entry old⟩

theorem mem_invalidate (name : String) (entry : κ × Slot κ α) :
    entry ∈ (c.invalidate name).1.slots ↔ entry ∈ c.slots ∧ uses name entry.2 = false := by
  refine ⟨fun member => ⟨c.mem_of_mem_invalidate name entry member, c.unused_of_mem_invalidate name entry member⟩, ?_⟩
  rintro ⟨member, unused⟩
  unfold invalidate
  dsimp only
  split
  · exact member
  · exact List.mem_filter.mpr ⟨member, by simp [unused]⟩

theorem invalidate_counts (name : String) :
    (c.invalidate name).1.capacity = c.capacity ∧ (c.invalidate name).1.stats.compiles = c.stats.compiles ∧
      (c.invalidate name).1.stats.requests = c.stats.requests := by
  unfold invalidate
  dsimp only
  split <;> exact ⟨rfl, rfl, rfl⟩

end Cache

namespace Session

def built (s : Session) : Nat := (s.device.map (·.built)).getD 0

-- A request for the program of a kernel, with the session it meets.
structure Ask where
  session : Session
  kernel : Kernel

namespace Ask

def key (a : Ask) : Signature := a.kernel.signature a.session.registry

def succeeds (a : Ask) : Bool := (a.session.program a.kernel).2.toOption.isSome

def builds (a : Ask) : Bool := (a.session.program a.kernel).1.built ≠ a.session.built

end Ask

def compileAsks (s : Session) (body : Body) (settings : Settings) : List Ask :=
  match Kernel.make body settings with
  | .error _ => []
  | .ok k => if k.mode = .cpu then [] else [⟨s, k⟩]

def runAsks (s : Session) (k : Kernel) (args : List Arg) : List Ask :=
  match k.checkArgs args, s.attempt? k with
  | .ok (), some _ => [⟨s, k⟩]
  | _, _ => []

def shaderAsks (s : Session) (k : Kernel) : List Ask := if k.mode = .cpu then [] else [⟨s, k⟩]

-- A copy compiles a kernel and runs it.
def copyAsks (s : Session) (b : Encoded) : List Ask :=
  match s.codec.decode b b.shape with
  | .error _ => []
  | .ok source =>
    if b.shape.any (0x100000000 ≤ ·) then []
    else
      let settings : Settings := { dimensions := some b.shape.reverse }
      s.compileAsks (copyBody b.shape.length) settings ++
        match s.compile (copyBody b.shape.length) settings with
        | (_, .error _) => []
        | (compiled, .ok k) => compiled.runAsks k [.array source]

def asks (s : Session) : Action → List Ask
  | .compile body settings => s.compileAsks body settings
  | .run k args => s.runAsks k args
  | .shader k => s.shaderAsks k
  | .copy b => s.copyAsks b
  | .register _ | .define _ | .faults _ | .lose | .restore => []

def asked (s : Session) : List Action → List Ask
  | [] => []
  | action :: rest => s.asks action ++ (s.step action).asked rest

def builtKeys (asks : List Ask) : List Signature := (asks.filter Ask.builds).map Ask.key

structure Steady (s t : Session) : Prop where
  registry : t.registry = s.registry
  device : t.device.isSome = s.device.isSome
  built : t.built = s.built
  slots : ∀ entry, entry ∈ t.cache.slots ↔ entry ∈ s.cache.slots
  capacity : t.cache.capacity = s.cache.capacity
  compiles : t.cache.stats.compiles = s.cache.stats.compiles

theorem Steady.refl (s : Session) : s.Steady s := ⟨rfl, rfl, rfl, fun _ => Iff.rfl, rfl, rfl⟩

structure Gains (s t : Session) (key : Signature) (found : CachedProgram Signature Compiled) : Prop where
  absent : ∀ entry ∈ s.cache.slots, entry.1 ≠ key
  functions : found.functions = key.functions.stamps.map Prod.fst
  registry : t.registry = s.registry
  device : t.device.isSome = true
  built : t.built = s.built + 1
  slots : ∀ entry, entry ∈ t.cache.slots ↔ entry = (key, .ready found) ∨ entry ∈ s.cache.slots
  capacity : t.cache.capacity = s.cache.capacity
  compiles : t.cache.stats.compiles = s.cache.stats.compiles + 1

-- Everything that a request can do about programs: find one, fail, or build one.
theorem program_ways {s : Session} (sound : s.Sound) (unbounded : s.cache.capacity = none) (present : s.device.isSome = true)
    (k : Kernel) :
    (s.Steady (s.program k).1 ∧ ((∃ e, (s.program k).2 = .error e) ∨
      ∃ found, (s.program k).2 = .ok found ∧ (k.signature s.registry, .ready found) ∈ s.cache.slots)) ∨
    ∃ found, (s.program k).2 = .ok found ∧ s.Gains (s.program k).1 (k.signature s.registry) found := by
  obtain ⟨device, here⟩ := Option.isSome_iff_exists.mp present
  have parts := s.cache.lookup_parts (k.signature s.registry)
  unfold program
  rw [here]
  dsimp only
  cases looked : s.cache.lookup (k.signature s.registry) with
  | mk cache what =>
    have keyed : s.cache.lookup (k.signatureOf (k.functions s.registry)) = (cache, what) := looked
    rw [looked] at parts
    rw [keyed]
    rcases parts with ⟨found, ready, hit, after⟩ | ⟨flight, waits, _, _⟩ | ⟨absent, leads, after⟩
    · cases hit
      cases after
      exact .inl ⟨⟨rfl, by simp [here], by simp [built, here], fun _ => Iff.rfl, rfl, rfl⟩, .inr ⟨found, rfl, ready⟩⟩
    · obtain ⟨_, ready, _⟩ := sound.cache _ waits
      cases ready
    · cases leads
      dsimp only
      rcases s.build_parts sound.generator device k (k.functions s.registry) with ⟨cause, failed, _⟩ | ⟨text, made⟩
      · rw [failed]
        have slots := Cache.mem_finish_error absent s.cache.flights (.compilationFailed cause)
        rw [looked] at slots
        cases after
        exact .inl ⟨⟨rfl, by simp [here], by simp [built, here], slots, rfl, rfl⟩, .inl ⟨_, rfl⟩⟩
      · rw [made]
        have names : (k.functions s.registry).names = (k.signature s.registry).functions.stamps.map Prod.fst := by
          simp [Kernel.signature, Kernel.signatureOf, Snapshot.fingerprint, Snapshot.names]
        have stored := Cache.finish_ok unbounded absent s.cache.flights
        rw [looked] at stored
        obtain ⟨slots, capacity, compiles⟩ := stored _
        exact .inr ⟨_, rfl, (s.cache.slot?_eq_none _).mp absent, names, rfl, rfl, by simp [built, here], slots, capacity,
          compiles⟩

-- What holds of a session and the requests made so far: every key that was built is in the cache or
-- out of use.
structure Tally (s : Session) (asks : List Ask) : Prop where
  sound : s.Sound
  unbounded : s.cache.capacity = none
  present : s.device.isSome = true
  requests : s.cache.stats.requests = asks.length
  compiles : s.cache.stats.compiles = s.built
  count : s.built = (builtKeys asks).length
  distinct : (builtKeys asks).Nodup
  succeeded : ∀ key, key ∈ builtKeys asks ↔ ∃ a ∈ asks, a.succeeds = true ∧ a.key = key
  held : ∀ key ∈ builtKeys asks, (∃ found, (key, .ready found) ∈ s.cache.slots) ∨ s.registry.Outdates key
  listed : ∀ key found, (key, .ready found) ∈ s.cache.slots →
    key ∈ builtKeys asks ∧ found.functions = key.functions.stamps.map Prod.fst

theorem builtKeys_append (asks more : List Ask) : builtKeys (asks ++ more) = builtKeys asks ++ builtKeys more := by
  simp [builtKeys]

section
variable {s t : Session} {asks more : List Ask}

theorem Tally.steady (tally : Tally s asks) (steady : s.Steady t) (sound : t.Sound)
    (requests : t.cache.stats.requests = s.cache.stats.requests + more.length) (idle : ∀ a ∈ more, a.builds = false)
    (served : ∀ a ∈ more, a.succeeds = true → a.key ∈ builtKeys asks) : Tally t (asks ++ more) := by
  have none : builtKeys more = [] := by
    rw [builtKeys, List.filter_eq_nil_iff.mpr (by simpa using idle), List.map_nil]
  have keys : builtKeys (asks ++ more) = builtKeys asks := by
    rw [builtKeys_append, none, List.append_nil]
  refine ⟨sound, ?_, ?_, ?_, ?_, ?_, ?_, ?_, ?_, ?_⟩
  · rw [steady.capacity, tally.unbounded]
  · rw [steady.device, tally.present]
  · rw [requests, tally.requests, List.length_append]
  · rw [steady.compiles, tally.compiles, steady.built]
  · rw [keys, steady.built, tally.count]
  · rw [keys]
    exact tally.distinct
  · intro key
    rw [keys]
    constructor
    · intro member
      obtain ⟨a, listed, ok⟩ := (tally.succeeded key).mp member
      exact ⟨a, List.mem_append_left _ listed, ok⟩
    · rintro ⟨a, listed, ok, rfl⟩
      rcases List.mem_append.mp listed with old | new
      · exact (tally.succeeded a.key).mpr ⟨a, old, ok, rfl⟩
      · exact served a new ok
  · intro key member
    rw [keys] at member
    rw [steady.registry]
    refine (tally.held key member).imp ?_ id
    rintro ⟨found, ready⟩
    exact ⟨found, (steady.slots _).mpr ready⟩
  · intro key found ready
    rw [keys]
    exact tally.listed key found ((steady.slots _).mp ready)

-- A key that is built was not built before: it is not in the cache, and it is in use.
theorem Tally.gains (tally : Tally s asks) {k : Kernel} {found : CachedProgram Signature Compiled} (sound : t.Sound)
    (requests : t.cache.stats.requests = s.cache.stats.requests + 1) (gains : s.Gains t (k.signature s.registry) found)
    (builds : Ask.builds ⟨s, k⟩ = true) (succeeds : Ask.succeeds ⟨s, k⟩ = true) : Tally t (asks ++ [⟨s, k⟩]) := by
  have keys : builtKeys (asks ++ [⟨s, k⟩]) = builtKeys asks ++ [k.signature s.registry] := by
    rw [builtKeys_append]
    congr 1
    simp [builtKeys, builds, Ask.key]
  have new : k.signature s.registry ∉ builtKeys asks := by
    intro member
    rcases tally.held _ member with ⟨old, ready⟩ | outdated
    · exact gains.absent _ ready rfl
    · exact s.registry.not_outdates k outdated
  refine ⟨sound, ?_, gains.device, ?_, ?_, ?_, ?_, ?_, ?_, ?_⟩
  · rw [gains.capacity, tally.unbounded]
  · rw [requests, tally.requests, List.length_append, List.length_singleton]
  · rw [gains.compiles, tally.compiles, gains.built]
  · rw [keys, gains.built, tally.count, List.length_append, List.length_singleton]
  · rw [keys]
    exact List.nodup_append.mpr ⟨tally.distinct, by simp, by
      intro a old b last same
      rw [List.mem_singleton] at last
      exact new (last ▸ same ▸ old)⟩
  · intro key
    rw [keys, List.mem_append, tally.succeeded, List.mem_singleton]
    constructor
    · rintro (⟨a, listed, ok⟩ | rfl)
      · exact ⟨a, List.mem_append_left _ listed, ok⟩
      · exact ⟨⟨s, k⟩, by simp, succeeds, rfl⟩
    · rintro ⟨a, listed, ok, rfl⟩
      rcases List.mem_append.mp listed with old | last
      · exact .inl ⟨a, old, ok, rfl⟩
      · cases List.mem_singleton.mp last
        exact .inr rfl
  · intro key member
    rw [keys] at member
    rw [gains.registry]
    rcases List.mem_append.mp member with old | last
    · refine (tally.held key old).imp ?_ id
      rintro ⟨other, ready⟩
      exact ⟨other, (gains.slots _).mpr (.inr ready)⟩
    · cases List.mem_singleton.mp last
      exact .inl ⟨found, (gains.slots _).mpr (.inl rfl)⟩
  · intro key other ready
    rw [keys, List.mem_append]
    rcases (gains.slots _).mp ready with here | old
    · cases here
      exact ⟨.inr (List.mem_singleton.mpr rfl), gains.functions⟩
    · obtain ⟨member, functions⟩ := tally.listed key other old
      exact ⟨.inl member, functions⟩

theorem Tally.program (tally : Tally s asks) (k : Kernel) : Tally (s.program k).1 (asks ++ [⟨s, k⟩]) := by
  obtain ⟨device, here⟩ := Option.isSome_iff_exists.mp tally.present
  have sound := (s.program_parts tally.sound k).1
  have requests : (s.program k).1.cache.stats.requests = s.cache.stats.requests + 1 := by
    obtain ⟨cache, count, after, one⟩ := program_present here k
    rw [after]
    exact one
  rcases program_ways tally.sound tally.unbounded tally.present k with ⟨steady, served⟩ | ⟨found, ok, gains⟩
  · refine tally.steady steady sound requests ?_ ?_
    · simp [Ask.builds, steady.built]
    · intro a last succeeds
      cases List.mem_singleton.mp last
      rcases served with ⟨e, failed⟩ | ⟨found, _, ready⟩
      · simp [Ask.succeeds, failed, Except.toOption] at succeeds
      · exact (tally.listed _ found ready).1
  · exact tally.gains sound requests gains (by simp [Ask.builds, gains.built]) (by simp [Ask.succeeds, ok, Except.toOption])

theorem runDevice_steady (s : Session) (k : Kernel) (args : List Arg) :
    (s.program k).1.Steady (s.runDevice k args).1 ∧
      (s.runDevice k args).1.cache.stats.requests = (s.program k).1.cache.stats.requests := by
  cases attached : s.device with
  | none =>
    rw [runDevice_absent attached, program_absent attached]
    exact ⟨.refl s, rfl⟩
  | some _ =>
    unfold runDevice
    rw [attached]
    generalize s.program k = asked
    obtain ⟨next, outcome⟩ := asked
    cases outcome with
    | error e => exact ⟨.refl next, rfl⟩
    | ok found =>
      dsimp only
      cases present : next.device with
      | none => exact ⟨.refl next, rfl⟩
      | some device =>
        obtain ⟨launches, ⟨uploaded, launched⟩, _⟩ := next.execute_device device k found.artifact.program args
        dsimp only
        rw [launched]
        exact ⟨⟨rfl, by simp [present], by simp [built, present], fun _ => Iff.rfl, rfl, rfl⟩, rfl⟩

theorem Tally.idle (tally : Tally s asks) (steady : s.Steady t) (sound : t.Sound)
    (requests : t.cache.stats.requests = s.cache.stats.requests) : Tally t asks := by
  have still : Tally t (asks ++ []) := tally.steady steady sound requests (by simp) (by simp)
  rwa [List.append_nil] at still

theorem Tally.run (tally : Tally s asks) (k : Kernel) (args : List Arg) :
    Tally (s.run k args).1 (asks ++ s.runAsks k args) := by
  cases checked : k.checkArgs args with
  | error e => simpa [Session.run, runAsks, checked] using tally
  | ok _ =>
    cases tries : s.attempt? k with
    | none => simpa [Session.run, runAsks, checked, tries] using tally
    | some signature =>
      rw [run_attempted checked tries]
      obtain ⟨steady, requests⟩ := s.runDevice_steady k args
      have after := (tally.program k).idle steady (s.runDevice_sound tally.sound k args).1 requests
      simpa [runAsks, checked, tries] using after

theorem Tally.compile (tally : Tally s asks) (body : Body) (settings : Settings) :
    Tally (s.compile body settings).1 (asks ++ s.compileAsks body settings) := by
  unfold Session.compile compileAsks
  cases Kernel.make body settings with
  | error e => simpa using tally
  | ok k =>
    dsimp only
    split
    · simpa using tally
    · have after := tally.program k
      generalize s.program k = asked at after
      obtain ⟨next, outcome⟩ := asked
      cases outcome with
      | ok found => exact after
      | error e =>
        dsimp only
        split <;> exact after

theorem Tally.shader (tally : Tally s asks) (k : Kernel) : Tally (s.shader k).1 (asks ++ s.shaderAsks k) := by
  unfold Session.shader shaderAsks
  split
  · simpa using tally
  · have after := tally.program k
    generalize s.program k = asked at after
    obtain ⟨next, outcome⟩ := asked
    cases outcome <;> exact after

theorem Tally.copy (tally : Tally s asks) (b : Encoded) : Tally (s.copy b).1 (asks ++ s.copyAsks b) := by
  unfold Session.copy copyAsks
  cases s.codec.decode b b.shape with
  | error e => simpa using tally
  | ok source =>
    dsimp only
    split
    · simpa using tally
    · have compiled := tally.compile (copyBody b.shape.length) { dimensions := some b.shape.reverse }
      rw [← List.append_assoc]
      generalize s.compile (copyBody b.shape.length) { dimensions := some b.shape.reverse } = made at compiled
      obtain ⟨middle, outcome⟩ := made
      cases outcome with
      | error e => simpa using compiled
      | ok k =>
        have ran := compiled.run k [.array source]
        dsimp only
        generalize middle.run k [.array source] = result at ran
        obtain ⟨after, _, out⟩ := result
        cases out <;> exact ran

-- A registration may drop programs; their keys have the old stamp of the helper.
theorem Tally.registered (tally : Tally s asks) {d : Definition} {next : Registry} {how : Registration}
    (accepted : s.registry.register d = (next, .ok how)) {cache : ProgramCache}
    (kept : ∀ entry ∈ cache.slots, entry ∈ s.cache.slots)
    (dropped : ∀ entry ∈ s.cache.slots, entry ∈ cache.slots ∨ Cache.uses d.name entry.2 = true)
    (counts : cache.capacity = s.cache.capacity ∧ cache.stats.compiles = s.cache.stats.compiles ∧
      cache.stats.requests = s.cache.stats.requests) :
    Tally { s with registry := next, cache := cache } asks := by
  have later : s.registry.Later next := .register .refl accepted
  obtain ⟨checked, rfl, _⟩ := Registry.register_parts accepted
  obtain ⟨capacity, compiles, requests⟩ := counts
  refine ⟨store_sound s d tally.sound checked cache kept, capacity.trans tally.unbounded, tally.present,
    requests.trans tally.requests, compiles.trans tally.compiles, tally.count, tally.distinct, tally.succeeded, ?_,
    fun key found ready => tally.listed key found (kept _ ready)⟩
  intro key member
  rcases tally.held key member with ⟨found, ready⟩ | outdated
  · rcases dropped _ ready with still | uses
    · exact .inl ⟨found, still⟩
    · refine .inr ?_
      have named : d.name ∈ found.functions := by simpa [Cache.uses] using uses
      rw [(tally.listed key found ready).2] at named
      obtain ⟨⟨name, stamp⟩, listed, rfl⟩ := List.mem_map.mp named
      obtain ⟨_, same, built⟩ := tally.sound.cache _ ready
      cases same
      have keyed : key = _ := built.key
      have stamps := listed
      rw [keyed] at stamps
      obtain ⟨e, helper, pair⟩ := List.mem_map.mp stamps
      have given : e.generation = stamp := congrArg Prod.snd pair
      exact s.registry.outdates_store d listed (given ▸ (built.known e helper).1)
  · exact .inr (outdated.later later)

theorem Tally.registers (tally : Tally s asks) {d : Definition} {action : Action}
    (registers : action = .register d ∨ action = .define d) : Tally (s.step action) asks := by
  rcases s.step_registers registers with same | ⟨how, cache, stored, cached, next⟩
  · rw [same]
    exact tally
  · rw [next]
    rcases cached with rfl | rfl
    · exact tally.registered stored (fun _ member => member) (fun _ member => .inl member) ⟨rfl, rfl, rfl⟩
    · refine tally.registered stored (s.cache.mem_of_mem_invalidate d.name) ?_ (Cache.invalidate_counts d.name)
      intro entry member
      cases uses : Cache.uses d.name entry.2 with
      | false => exact .inl ((Cache.mem_invalidate d.name entry).mpr ⟨member, uses⟩)
      | true => exact .inr rfl

theorem Tally.mapDevice (tally : Tally s asks) (change : Device → Device) (order : ∀ d, (change d).hostOrder = d.hostOrder)
    (built : ∀ d, (change d).built = d.built) : Tally { s with device := s.device.map change } asks := by
  refine tally.idle ⟨rfl, by simp, ?_, fun _ => Iff.rfl, rfl, rfl⟩ (mapDevice_sound s tally.sound change order) rfl
  cases present : s.device with
  | none => simp [Session.built, present]
  | some device => simp [Session.built, present, built]

theorem Tally.step (tally : Tally s asks) (action : Action) : Tally (s.step action) (asks ++ s.asks action) := by
  cases action with
  | compile body settings => exact tally.compile body settings
  | run k args => exact tally.run k args
  | shader k => exact tally.shader k
  | copy b => exact tally.copy b
  | register d =>
    rw [Session.asks, List.append_nil]
    exact tally.registers (.inl rfl)
  | define d =>
    rw [Session.asks, List.append_nil]
    exact tally.registers (.inr rfl)
  | faults switches =>
    rw [Session.asks, List.append_nil]
    exact tally.mapDevice _ (fun _ => rfl) fun _ => rfl
  | lose =>
    rw [Session.asks, List.append_nil]
    exact tally.mapDevice _ (fun _ => rfl) fun _ => rfl
  | restore =>
    rw [Session.asks, List.append_nil]
    refine tally.mapDevice _ (fun d => ?_) fun d => ?_
    all_goals
      unfold Device.restore
      split <;> rfl

end

theorem Tally.after {s : Session} {past : List Ask} (tally : Tally s past) (history : List Action) :
    Tally (history.foldl Session.step s) (past ++ s.asked history) := by
  induction history generalizing s past with
  | nil =>
    rw [asked, List.append_nil]
    exact tally
  | cons action rest ih =>
    rw [asked, ← List.append_assoc]
    exact ih (tally.step action)

theorem new_tally (device : Device) (order : ByteOrder) (strict : Bool) :
    Tally (Session.new (some { device with built := 0 }) order strict none Shader.generate) [] := by
  refine ⟨new_sound _ order strict none, rfl, rfl, rfl, rfl, rfl, List.nodup_nil, ?_, ?_, ?_⟩
  · simp [builtKeys]
  · simp [builtKeys]
  · simp [Session.new, Cache.new]

end Session

-- The requests are all there: the cache counts as many. Those that build have different keys, and
-- every request that succeeds has the key of one that built.
theorem programs_are_built_once (device : Device) (order : ByteOrder) (strict : Bool) (history : List Session.Action) :
    let s := Session.after (some { device with built := 0 }) order strict none history
    let asked := (Session.new (some { device with built := 0 }) order strict none Shader.generate).asked history
    s.cache.stats.requests = asked.length ∧
      ((asked.filter Session.Ask.builds).map Session.Ask.key).Nodup ∧
      ∃ d, s.device = some d ∧ d.built = (asked.filter Session.Ask.builds).length ∧ d.built = s.cache.stats.compiles ∧
        d.built = ((asked.filter Session.Ask.succeeds).map Session.Ask.key).dedup.length := by
  intro s asked
  have tally : Session.Tally s asked := (Session.new_tally device order strict).after history
  obtain ⟨d, here⟩ := Option.isSome_iff_exists.mp tally.present
  have built : s.built = d.built := by simp [Session.built, here]
  refine ⟨tally.requests, tally.distinct, d, here, ?_, ?_, ?_⟩
  · rw [← built, tally.count, Session.builtKeys, List.length_map]
  · rw [← built, tally.compiles]
  · rw [← built, tally.count]
    refine ((List.perm_ext_iff_of_nodup tally.distinct (List.nodup_dedup _)).mpr fun key => ?_).length_eq
    rw [tally.succeeded, List.mem_dedup, List.mem_map]
    simp only [List.mem_filter, and_assoc]

end GridKernel
