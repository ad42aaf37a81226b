import GridKernel.Proofs.Cache.Slots

namespace GridKernel.Flights

variable {κ α : Type} [DecidableEq κ]

abbrev Ending (κ α : Type) := Option (Outcome κ α)

def delivered (ending : Ending κ α) : Outcome κ α := ending.getD Cache.aborted

omit [DecidableEq κ] in
theorem delivered_ok {ending : Ending κ α} {program : CachedProgram κ α} (made : delivered ending = .ok program) :
    ending = some (.ok program) := by
  cases ending with
  | none => cases made
  | some outcome => exact congrArg some made

-- Where a caller is. The build runs in `building`; the leader still has to settle in `built`
-- and to publish in `settled`.
inductive Phase (κ α : Type) where
  | idle
  | building (key : κ) (flight : Nat)
  | built (key : κ) (flight : Nat) (ending : Ending κ α)
  | settled (flight : Nat) (ending : Ending κ α)
  | waiting (flight : Nat)
  | answered (ending : Ending κ α)

namespace Phase

def runs? : Phase κ α → Option (κ × Nat)
  | building key flight => some (key, flight)
  | _ => none

def unsettled? : Phase κ α → Option (κ × Nat)
  | building key flight => some (key, flight)
  | built key flight _ => some (key, flight)
  | _ => none

def leads? : Phase κ α → Option Nat
  | building _ flight => some flight
  | built _ flight _ => some flight
  | settled flight _ => some flight
  | _ => none

def ended? : Phase κ α → Option (Nat × Ending κ α)
  | built _ flight ending => some (flight, ending)
  | settled flight ending => some (flight, ending)
  | _ => none

def waits? : Phase κ α → Option Nat
  | waiting flight => some flight
  | _ => none

end Phase

structure System (κ α : Type) where
  cache : Cache κ α
  callers : Nat → Phase κ α

inductive Event (κ α : Type) where
  | hit (caller : Nat) (key : κ)
  | joined (caller : Nat) (key : κ) (flight : Nat)
  | led (caller : Nat) (key : κ) (flight : Nat)
  | ended (caller : Nat) (flight : Nat) (ending : Ending κ α)
  | settled (caller : Nat) (flight : Nat)
  | published (caller : Nat) (flight : Nat)
  | received (caller : Nat) (flight : Nat)
  | returned (caller : Nat)
  | invalidated (name : String)
  | cleared
  | read (key : κ)

-- Neither the start nor the end of a build.
def Event.quiet : Event κ α → Bool
  | led .. | ended .. => false
  | _ => true

def System.start (capacity : Option Nat) : System κ α := ⟨Cache.new capacity, fun _ => .idle⟩

def System.move (s : System κ α) (caller : Nat) (phase : Phase κ α) (cache : Cache κ α) : System κ α :=
  ⟨cache, fun other => if other = caller then phase else s.callers other⟩

section
variable (s : System κ α) (caller : Nat) (phase : Phase κ α) (cache : Cache κ α)

omit [DecidableEq κ] in
@[simp]
theorem System.move_cache : (s.move caller phase cache).cache = cache := rfl

omit [DecidableEq κ] in
@[simp]
theorem System.move_self : (s.move caller phase cache).callers caller = phase := if_pos rfl

omit [DecidableEq κ] in
theorem System.move_other {other : Nat} (apart : other ≠ caller) :
    (s.move caller phase cache).callers other = s.callers other := if_neg apart

omit [DecidableEq κ] in
theorem System.moved {other : Nat} {was now : Phase κ α} (before : s.callers other = was)
    (after : (s.move caller phase cache).callers other = now) (changed : now ≠ was) : other = caller ∧ phase = now := by
  by_cases moved : other = caller
  · subst moved
    exact ⟨rfl, (s.move_self other phase cache).symm.trans after⟩
  · rw [System.move_other s caller phase cache moved, before] at after
    exact absurd after.symm changed

omit [DecidableEq κ] in
theorem System.move_same {β : Type} (view : Phase κ α → β) (same : view phase = view (s.callers caller)) (other : Nat) :
    view ((s.move caller phase cache).callers other) = view (s.callers other) := by
  by_cases moved : other = caller
  · rw [moved, System.move_self, same]
  · rw [System.move_other s caller phase cache moved]

omit [DecidableEq κ] in
theorem System.move_keeps {β : Type} (view : Phase κ α → Option β) (other : Nat) (b : β)
    (showed : view (s.callers other) = some b) (another : view (s.callers caller) ≠ some b) :
    view ((s.move caller phase cache).callers other) = some b := by
  rw [System.move_other s caller phase cache]
  · exact showed
  · rintro rfl
    exact another showed

omit [DecidableEq κ] in
theorem System.move_shows {β : Type} (view : Phase κ α → Option β) (other : Nat) (b : β)
    (shows : view ((s.move caller phase cache).callers other) = some b) :
    other = caller ∧ view phase = some b ∨ other ≠ caller ∧ view (s.callers other) = some b := by
  by_cases moved : other = caller
  · subst moved
    rw [System.move_self] at shows
    exact .inl ⟨rfl, shows⟩
  · rw [System.move_other s caller phase cache moved] at shows
    exact .inr ⟨moved, shows⟩

end

-- One atomic step. A build may end in any way, and an answered caller may ask again.
inductive Step (s : System κ α) : Event κ α → System κ α → Prop where
  | hit {caller : Nat} {key : κ} {program : CachedProgram κ α} (free : s.callers caller = .idle)
      (found : (s.cache.lookup key).2 = .hit program) :
      Step s (.hit caller key) (s.move caller (.answered (some (.ok program))) (s.cache.lookup key).1)
  | joined {caller flight : Nat} {key : κ} (free : s.callers caller = .idle)
      (found : (s.cache.lookup key).2 = .joined flight) :
      Step s (.joined caller key flight) (s.move caller (.waiting flight) (s.cache.lookup key).1)
  | led {caller flight : Nat} {key : κ} (free : s.callers caller = .idle)
      (found : (s.cache.lookup key).2 = .leads flight) :
      Step s (.led caller key flight) (s.move caller (.building key flight) (s.cache.lookup key).1)
  | ended {caller flight : Nat} {key : κ} (ending : Ending κ α) (runs : s.callers caller = .building key flight) :
      Step s (.ended caller flight ending) (s.move caller (.built key flight ending) s.cache)
  | settled {caller flight : Nat} {key : κ} {ending : Ending κ α} (ready : s.callers caller = .built key flight ending) :
      Step s (.settled caller flight) (s.move caller (.settled flight ending) (s.cache.settle key (delivered ending)))
  | published {caller flight : Nat} {ending : Ending κ α} (ready : s.callers caller = .settled flight ending) :
      Step s (.published caller flight) (s.move caller (.answered ending) (s.cache.publish flight (delivered ending)))
  | received {caller flight : Nat} {outcome : Outcome κ α} (waits : s.callers caller = .waiting flight)
      (got : s.cache.received? flight = some outcome) :
      Step s (.received caller flight) (s.move caller (.answered (some outcome)) s.cache)
  | returned {caller : Nat} {ending : Ending κ α} (done : s.callers caller = .answered ending) :
      Step s (.returned caller) (s.move caller .idle s.cache)
  | invalidated (name : String) : Step s (.invalidated name) ⟨(s.cache.invalidate name).1, s.callers⟩
  | cleared : Step s .cleared ⟨s.cache.clear, s.callers⟩
  | read (key : κ) : Step s (.read key) s

-- Any interleaving, with its events from the latest back.
inductive Run (capacity : Option Nat) : List (Event κ α) → System κ α → Prop where
  | start : Run capacity [] (.start capacity)
  | step {events : List (Event κ α)} {s next : System κ α} {event : Event κ α} (before : Run capacity events s)
      (step : Step s event next) : Run capacity (event :: events) next

-- What every interleaving keeps. A pending slot has exactly one unsettled leader, a flight has
-- one leader and one ending, and a flight that was started is under way or published.
structure Orderly (events : List (Event κ α)) (s : System κ α) : Prop where
  unique : s.cache.Unique
  pending : ∀ key flight, (key, .pending flight) ∈ s.cache.slots ↔
    ∃ caller, (s.callers caller).unsettled? = some (key, flight)
  led : ∀ caller key flight, (s.callers caller).unsettled? = some (key, flight) → .led caller key flight ∈ events
  leads : ∀ caller flight, (s.callers caller).leads? = some flight → ∃ key, .led caller key flight ∈ events
  numbered : ∀ caller key flight, .led caller key flight ∈ events → flight < s.cache.flights
  once : ∀ a b key other flight, .led a key flight ∈ events → .led b other flight ∈ events → a = b ∧ key = other
  ended : ∀ caller flight ending, (s.callers caller).ended? = some (flight, ending) →
    .ended caller flight ending ∈ events
  running : ∀ caller key flight, (s.callers caller).runs? = some (key, flight) →
    ∀ other ending, .ended other flight ending ∉ events
  own : ∀ caller flight ending, .ended caller flight ending ∈ events → ∃ key, .led caller key flight ∈ events
  final : ∀ a b flight first second, .ended a flight first ∈ events → .ended b flight second ∈ events → first = second
  published : ∀ flight outcome, (flight, outcome) ∈ s.cache.published →
    ∃ caller ending, .ended caller flight ending ∈ events ∧ outcome = delivered ending
  waiting : ∀ caller flight, (s.callers caller).waits? = some flight →
    ∃ key leader, .joined caller key flight ∈ events ∧ .led leader key flight ∈ events
  delivers : ∀ caller key flight, .led caller key flight ∈ events →
    (s.callers caller).leads? = some flight ∨ ∃ outcome, (flight, outcome) ∈ s.cache.published

variable {events : List (Event κ α)} {s next : System κ α} {event : Event κ α}

omit [DecidableEq κ] in
theorem start_orderly (capacity : Option Nat) : Orderly [] (System.start capacity : System κ α) := by
  constructor <;> simp [System.start, Cache.new, Cache.Unique, Phase.unsettled?, Phase.leads?, Phase.ended?, Phase.waits?]

omit [DecidableEq κ] in
theorem Phase.runs_unsettled {phase : Phase κ α} {key : κ} {flight : Nat} (runs : phase.runs? = some (key, flight)) :
    phase.unsettled? = some (key, flight) := by
  cases phase <;> simp_all [runs?, unsettled?]

omit [DecidableEq κ] in
theorem Phase.leads_nothing {phase : Phase κ α} (follows : phase.leads? = none) :
    phase.unsettled? = none ∧ phase.ended? = none ∧ phase.runs? = none := by
  cases phase <;> simp_all [leads?, unsettled?, ended?, runs?]

omit [DecidableEq κ] in
theorem Orderly.quiet (orderly : Orderly events s) (kept : s.cache.Keeps next.cache)
    (unsettled : ∀ caller, (next.callers caller).unsettled? = (s.callers caller).unsettled?)
    (leads : ∀ caller, (next.callers caller).leads? = (s.callers caller).leads?)
    (ended : ∀ caller, (next.callers caller).ended? = (s.callers caller).ended?)
    (runs : ∀ caller, (next.callers caller).runs? = (s.callers caller).runs?)
    (quiet : event.quiet = true)
    (waits : ∀ caller flight, (next.callers caller).waits? = some flight →
      ∃ key leader, .joined caller key flight ∈ event :: events ∧ .led leader key flight ∈ events) :
    Orderly (event :: events) next := by
  have led (caller : Nat) (key : κ) (flight : Nat) : Event.led caller key flight ≠ event := by
    rintro rfl
    cases quiet
  have endings (caller flight : Nat) (ending : Ending κ α) : Event.ended caller flight ending ≠ event := by
    rintro rfl
    cases quiet
  refine ⟨kept.unique, ?_, ?_, ?_, ?_, ?_, ?_, ?_, ?_, ?_, ?_, ?_, ?_⟩ <;>
    simp only [kept.pending, kept.flights, kept.published, unsettled, leads, ended, runs, List.mem_cons,
      led, endings, false_or]
  · exact orderly.pending
  · exact orderly.led
  · exact orderly.leads
  · exact orderly.numbered
  · exact orderly.once
  · exact orderly.ended
  · exact orderly.running
  · exact orderly.own
  · exact orderly.final
  · exact orderly.published
  · simpa only [List.mem_cons] using waits
  · exact orderly.delivers

theorem Orderly.led_step {caller flight : Nat} {key : κ} (orderly : Orderly events s) (free : s.callers caller = .idle)
    (found : (s.cache.lookup key).2 = .leads flight) :
    Orderly (.led caller key flight :: events) (s.move caller (.building key flight) (s.cache.lookup key).1) := by
  obtain ⟨absent, rfl, after⟩ := Cache.lookup_leads found
  -- The number is new, so no earlier event is about this flight.
  have fresh (c : Nat) (k : κ) : Event.led c k s.cache.flights ∉ events := fun old =>
    Nat.lt_irrefl _ (orderly.numbered c k _ old)
  have ended := s.move_same caller (.building key s.cache.flights) (s.cache.lookup key).1 Phase.ended? (by rw [free]; rfl)
  have waits := s.move_same caller (.building key s.cache.flights) (s.cache.lookup key).1 Phase.waits? (by rw [free]; rfl)
  refine ⟨?_, ?_, ?_, ?_, ?_, ?_, ?_, ?_, ?_, ?_, ?_, ?_, ?_⟩ <;>
    simp only [System.move_cache, ended, waits, List.mem_cons, reduceCtorEq, false_or, Event.led.injEq]
  · rw [after]
    exact Cache.unique_withSlot orderly.unique key _
  · intro k f
    rw [after, Cache.mem_withSlot]
    constructor
    · rintro (new | ⟨old, _⟩)
      · cases new
        exact ⟨caller, by rw [System.move_self]; rfl⟩
      · obtain ⟨other, unsettled⟩ := (orderly.pending k f).mp old
        exact ⟨other, s.move_keeps _ _ _ _ other _ unsettled (by rw [free]; nofun)⟩
    · rintro ⟨other, shows⟩
      rcases s.move_shows _ _ _ _ _ _ shows with ⟨rfl, new⟩ | ⟨_, unsettled⟩
      · cases new
        exact .inl rfl
      · have old := (orderly.pending k f).mpr ⟨other, unsettled⟩
        exact .inr ⟨old, (Cache.slot?_eq_none s.cache key).mp absent _ old⟩
  · intro other k f shows
    rcases s.move_shows _ _ _ _ _ _ shows with ⟨rfl, new⟩ | ⟨_, unsettled⟩
    · cases new
      exact .inl ⟨rfl, rfl, rfl⟩
    · exact .inr (orderly.led other k f unsettled)
  · intro other f shows
    rcases s.move_shows _ _ _ _ _ _ shows with ⟨rfl, new⟩ | ⟨_, leads⟩
    · cases new
      exact ⟨key, .inl ⟨rfl, rfl, rfl⟩⟩
    · obtain ⟨k, old⟩ := orderly.leads other f leads
      exact ⟨k, .inr old⟩
  · rw [after]
    rintro c k f (⟨_, _, rfl⟩ | old)
    · exact Nat.lt_succ_self _
    · exact Nat.lt_succ_of_lt (orderly.numbered c k f old)
  · intro a b k other f one two
    rcases one with ⟨rfl, rfl, rfl⟩ | one
    · rcases two with ⟨rfl, rfl, _⟩ | two
      · exact ⟨rfl, rfl⟩
      · exact absurd two (fresh b other)
    · rcases two with ⟨_, _, rfl⟩ | two
      · exact absurd one (fresh a k)
      · exact orderly.once a b k other f one two
  · exact orderly.ended
  · intro other k f shows c e old
    rcases s.move_shows _ _ _ _ _ _ shows with ⟨rfl, new⟩ | ⟨_, runs⟩
    · cases new
      obtain ⟨k, led⟩ := orderly.own c _ e old
      exact fresh c k led
    · exact orderly.running other k f runs c e old
  · intro c f e old
    obtain ⟨k, led⟩ := orderly.own c f e old
    exact ⟨k, .inr led⟩
  · exact orderly.final
  · rw [after]
    exact orderly.published
  · intro other f stays
    obtain ⟨k, leader, joined, led⟩ := orderly.waiting other f stays
    exact ⟨k, leader, joined, .inr led⟩
  · rw [after]
    rintro c k f (⟨rfl, _, rfl⟩ | old)
    · exact .inl (by rw [System.move_self]; rfl)
    · rcases orderly.delivers c k f old with leads | done
      · exact .inl (s.move_keeps _ _ _ _ c _ leads (by rw [free]; nofun))
      · exact .inr done

omit [DecidableEq κ] in
theorem Orderly.ended_step {caller flight : Nat} {key : κ} (ending : Ending κ α) (orderly : Orderly events s)
    (runs : s.callers caller = .building key flight) :
    Orderly (.ended caller flight ending :: events) (s.move caller (.built key flight ending) s.cache) := by
  have mine : (s.callers caller).runs? = some (key, flight) := by rw [runs]; rfl
  have led := orderly.led _ _ _ (Phase.runs_unsettled mine)
  have unsettled := s.move_same caller (.built key flight ending) s.cache Phase.unsettled? (by rw [runs]; rfl)
  have leads := s.move_same caller (.built key flight ending) s.cache Phase.leads? (by rw [runs]; rfl)
  have waits := s.move_same caller (.built key flight ending) s.cache Phase.waits? (by rw [runs]; rfl)
  refine ⟨orderly.unique, ?_, ?_, ?_, ?_, ?_, ?_, ?_, ?_, ?_, ?_, ?_, ?_⟩ <;>
    simp only [System.move_cache, unsettled, leads, waits, List.mem_cons, reduceCtorEq, false_or, Event.ended.injEq]
  · exact orderly.pending
  · exact orderly.led
  · exact orderly.leads
  · exact orderly.numbered
  · exact orderly.once
  · intro other f e shows
    rcases s.move_shows _ _ _ _ _ _ shows with ⟨rfl, new⟩ | ⟨_, ended⟩
    · cases new
      exact .inl ⟨rfl, rfl, rfl⟩
    · exact .inr (orderly.ended other f e ended)
  · intro other k f shows c e
    rcases s.move_shows _ _ _ _ _ _ shows with ⟨rfl, new⟩ | ⟨apart, still⟩
    · cases new
    · rintro (⟨rfl, rfl, rfl⟩ | old)
      · exact apart (orderly.once _ _ _ _ _ (orderly.led _ _ _ (Phase.runs_unsettled still)) led).1
      · exact orderly.running other k f still c e old
  · rintro c f e (⟨rfl, rfl, rfl⟩ | old)
    · exact ⟨key, led⟩
    · exact orderly.own c f e old
  · intro a b f first second one two
    rcases one with ⟨rfl, rfl, rfl⟩ | one
    · rcases two with ⟨_, _, made⟩ | two
      · exact made.symm
      · exact absurd two (orderly.running _ _ _ mine b second)
    · rcases two with ⟨_, rfl, _⟩ | two
      · exact absurd one (orderly.running _ _ _ mine a first)
      · exact orderly.final a b f first second one two
  · intro f outcome member
    obtain ⟨c, e, old, made⟩ := orderly.published f outcome member
    exact ⟨c, e, .inr old, made⟩
  · exact orderly.waiting
  · exact orderly.delivers

theorem Orderly.settled_step {caller flight : Nat} {key : κ} {ending : Ending κ α} (orderly : Orderly events s)
    (ready : s.callers caller = .built key flight ending) :
    Orderly (.settled caller flight :: events)
      (s.move caller (.settled flight ending) (s.cache.settle key (delivered ending))) := by
  obtain ⟨unique, flights, published, pending⟩ := s.cache.settle_pending orderly.unique key (delivered ending)
  generalize s.cache.settle key (delivered ending) = after at unique flights published pending ⊢
  have mine : (s.callers caller).unsettled? = some (key, flight) := by rw [ready]; rfl
  have leads := s.move_same caller (.settled flight ending) after Phase.leads? (by rw [ready]; rfl)
  have ended := s.move_same caller (.settled flight ending) after Phase.ended? (by rw [ready]; rfl)
  have runs := s.move_same caller (.settled flight ending) after Phase.runs? (by rw [ready]; rfl)
  have waits := s.move_same caller (.settled flight ending) after Phase.waits? (by rw [ready]; rfl)
  refine ⟨unique, ?_, ?_, ?_, ?_, ?_, ?_, ?_, ?_, ?_, ?_, ?_, ?_⟩ <;>
    simp only [System.move_cache, leads, ended, runs, waits, flights, published, List.mem_cons, reduceCtorEq, false_or]
  · intro k f
    rw [pending, orderly.pending]
    constructor
    · rintro ⟨⟨other, unsettled⟩, apart⟩
      refine ⟨other, s.move_keeps _ _ _ _ other _ unsettled ?_⟩
      rw [mine]
      rintro ⟨⟩
      exact apart rfl
    · rintro ⟨other, shows⟩
      rcases s.move_shows _ _ _ _ _ _ shows with ⟨rfl, new⟩ | ⟨apart, unsettled⟩
      · cases new
      · refine ⟨⟨other, unsettled⟩, ?_⟩
        rintro rfl
        cases Cache.eq_of_mem orderly.unique ((orderly.pending k f).mpr ⟨other, unsettled⟩)
          ((orderly.pending k flight).mpr ⟨caller, mine⟩)
        exact apart (orderly.once _ _ _ _ _ (orderly.led _ _ _ unsettled) (orderly.led _ _ _ mine)).1
  · intro other k f shows
    rcases s.move_shows _ _ _ _ _ _ shows with ⟨rfl, new⟩ | ⟨_, unsettled⟩
    · cases new
    · exact orderly.led other k f unsettled
  · exact orderly.leads
  · exact orderly.numbered
  · exact orderly.once
  · exact orderly.ended
  · exact orderly.running
  · exact orderly.own
  · exact orderly.final
  · exact orderly.published
  · exact orderly.waiting
  · exact orderly.delivers

omit [DecidableEq κ] in
theorem Orderly.published_step {caller flight : Nat} {ending : Ending κ α} (orderly : Orderly events s)
    (ready : s.callers caller = .settled flight ending) :
    Orderly (.published caller flight :: events)
      (s.move caller (.answered ending) (s.cache.publish flight (delivered ending))) := by
  have mine : (s.callers caller).ended? = some (flight, ending) := by rw [ready]; rfl
  have slots : (s.cache.publish flight (delivered ending)).slots = s.cache.slots := rfl
  have flights : (s.cache.publish flight (delivered ending)).flights = s.cache.flights := rfl
  have published : (s.cache.publish flight (delivered ending)).published =
      (flight, delivered ending) :: s.cache.published := rfl
  generalize s.cache.publish flight (delivered ending) = after at slots flights published ⊢
  have unsettled := s.move_same caller (.answered ending) after Phase.unsettled? (by rw [ready]; rfl)
  have runs := s.move_same caller (.answered ending) after Phase.runs? (by rw [ready]; rfl)
  have waits := s.move_same caller (.answered ending) after Phase.waits? (by rw [ready]; rfl)
  refine ⟨?_, ?_, ?_, ?_, ?_, ?_, ?_, ?_, ?_, ?_, ?_, ?_, ?_⟩ <;>
    simp only [System.move_cache, Cache.Unique, slots, flights, published, unsettled, runs, waits, List.mem_cons,
      reduceCtorEq, false_or]
  · exact orderly.unique
  · exact orderly.pending
  · exact orderly.led
  · intro other f shows
    rcases s.move_shows _ _ _ _ _ _ shows with ⟨rfl, new⟩ | ⟨_, leads⟩
    · cases new
    · exact orderly.leads other f leads
  · exact orderly.numbered
  · exact orderly.once
  · intro other f e shows
    rcases s.move_shows _ _ _ _ _ _ shows with ⟨rfl, new⟩ | ⟨_, ended⟩
    · cases new
    · exact orderly.ended other f e ended
  · exact orderly.running
  · exact orderly.own
  · exact orderly.final
  · rintro f outcome (new | old)
    · cases new
      exact ⟨caller, ending, orderly.ended _ _ _ mine, rfl⟩
    · exact orderly.published f outcome old
  · exact orderly.waiting
  · intro c k f led
    rcases orderly.delivers c k f led with leads | ⟨outcome, done⟩
    · by_cases same : f = flight
      · subst same
        exact .inr ⟨delivered ending, .inl rfl⟩
      · refine .inl (s.move_keeps _ _ _ _ c _ leads ?_)
        rw [ready]
        rintro ⟨⟩
        exact same rfl
    · exact .inr ⟨outcome, .inr done⟩

omit [DecidableEq κ] in
theorem Orderly.bystander {caller : Nat} {phase : Phase κ α} {cache : Cache κ α} (orderly : Orderly events s)
    (kept : s.cache.Keeps cache) (before : (s.callers caller).leads? = none) (after : phase.leads? = none)
    (quiet : event.quiet = true)
    (waits : ∀ flight, phase.waits? = some flight →
      ∃ key leader, .joined caller key flight ∈ event :: events ∧ .led leader key flight ∈ events) :
    Orderly (event :: events) (s.move caller phase cache) := by
  obtain ⟨unsettled, ended, runs⟩ := Phase.leads_nothing after
  obtain ⟨unsettled', ended', runs'⟩ := Phase.leads_nothing before
  refine orderly.quiet kept ?_ ?_ ?_ ?_ quiet ?_
  · exact s.move_same caller phase cache Phase.unsettled? (unsettled.trans unsettled'.symm)
  · exact s.move_same caller phase cache Phase.leads? (after.trans before.symm)
  · exact s.move_same caller phase cache Phase.ended? (ended.trans ended'.symm)
  · exact s.move_same caller phase cache Phase.runs? (runs.trans runs'.symm)
  · intro other flight shows
    rcases s.move_shows _ _ _ _ _ _ shows with ⟨rfl, new⟩ | ⟨_, old⟩
    · exact waits flight new
    · obtain ⟨key, leader, joined, led⟩ := orderly.waiting other flight old
      exact ⟨key, leader, List.mem_cons_of_mem _ joined, led⟩

omit [DecidableEq κ] in
theorem Orderly.elsewhere {cache : Cache κ α} (orderly : Orderly events s) (kept : s.cache.Keeps cache)
    (quiet : event.quiet = true) :
    Orderly (event :: events) ⟨cache, s.callers⟩ := by
  refine orderly.quiet kept (fun _ => rfl) (fun _ => rfl) (fun _ => rfl) (fun _ => rfl) quiet ?_
  intro other flight shows
  obtain ⟨key, leader, joined, led⟩ := orderly.waiting other flight shows
  exact ⟨key, leader, List.mem_cons_of_mem _ joined, led⟩

theorem step_orderly (orderly : Orderly events s) (step : Step s event next) : Orderly (event :: events) next := by
  cases step with
  | hit free found =>
    have kept := Cache.lookup_keeps orderly.unique (fun flight leads => by rw [found] at leads; cases leads)
    exact orderly.bystander kept (by rw [free]; rfl) rfl rfl nofun
  | joined free found =>
    rename_i caller flight key
    have kept := Cache.lookup_keeps orderly.unique (fun flight leads => by rw [found] at leads; cases leads)
    refine orderly.bystander kept (by rw [free]; rfl) rfl rfl ?_
    rintro _ ⟨⟩
    obtain ⟨leader, unsettled⟩ := (orderly.pending key flight).mp (Cache.lookup_joined found)
    exact ⟨key, leader, List.mem_cons_self, orderly.led _ _ _ unsettled⟩
  | led free found => exact orderly.led_step free found
  | ended ending runs => exact orderly.ended_step ending runs
  | settled ready => exact orderly.settled_step ready
  | published ready => exact orderly.published_step ready
  | received waits got => exact orderly.bystander (.refl orderly.unique) (by rw [waits]; rfl) rfl rfl nofun
  | returned done => exact orderly.bystander (.refl orderly.unique) (by rw [done]; rfl) rfl rfl nofun
  | invalidated name => exact orderly.elsewhere (s.cache.invalidate_keeps orderly.unique name) rfl
  | cleared => exact orderly.elsewhere (s.cache.clear_keeps orderly.unique) rfl
  | read key => exact orderly.elsewhere (.refl orderly.unique) rfl

theorem run_orderly {capacity : Option Nat} (run : Run capacity events s) : Orderly events s := by
  induction run with
  | start => exact start_orderly capacity
  | step _ step ih => exact step_orderly ih step

end GridKernel.Flights
