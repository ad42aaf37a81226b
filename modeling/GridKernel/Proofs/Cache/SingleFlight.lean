import GridKernel.Proofs.Cache.Flights

namespace GridKernel.Flights

variable {κ α : Type} [DecidableEq κ] {events : List (Event κ α)} {s next : System κ α} {event : Event κ α}

omit [DecidableEq κ] in
theorem Phase.runs_iff {phase : Phase κ α} {key : κ} {flight : Nat} :
    phase.runs? = some (key, flight) ↔ phase = .building key flight := by
  cases phase <;> simp [runs?]

-- Two builds of one key would share its slot, and with it the flight.
omit [DecidableEq κ] in
theorem Orderly.one_build (orderly : Orderly events s) {a b : Nat} {key : κ} {first second : Nat}
    (one : s.callers a = .building key first) (two : s.callers b = .building key second) : a = b := by
  have left := Phase.runs_unsettled (Phase.runs_iff.mpr one)
  have right := Phase.runs_unsettled (Phase.runs_iff.mpr two)
  cases Cache.eq_of_mem orderly.unique ((orderly.pending key first).mpr ⟨a, left⟩)
    ((orderly.pending key second).mpr ⟨b, right⟩)
  exact (orderly.once _ _ _ _ _ (orderly.led _ _ _ left) (orderly.led _ _ _ right)).1

theorem starts_without_slot (step : Step s event next) {caller flight : Nat} {key : κ}
    (runs : next.callers caller = .building key flight) (before : s.callers caller ≠ .building key flight) :
    s.cache.slot? key = none := by
  rw [← Phase.runs_iff] at runs
  cases step with
  | led _ found =>
    rcases s.move_shows _ _ _ _ _ _ runs with ⟨_, new⟩ | ⟨_, old⟩
    · cases new
      exact (Cache.lookup_leads found).1
    · exact absurd (Phase.runs_iff.mp old) before
  | invalidated | cleared | read => exact absurd (Phase.runs_iff.mp runs) before
  | _ =>
    rcases s.move_shows _ _ _ _ _ _ runs with ⟨_, new⟩ | ⟨_, old⟩
    · cases new
    · exact absurd (Phase.runs_iff.mp old) before

theorem Orderly.pending_stays (orderly : Orderly events s) (step : Step s event next) {key : κ} {flight : Nat}
    (waits : (key, .pending flight) ∈ s.cache.slots) :
    (key, .pending flight) ∈ next.cache.slots ∨
      ∃ caller ending, s.callers caller = .built key flight ending ∧ event = .settled caller flight := by
  cases step with
  | hit _ found =>
    have kept := Cache.lookup_keeps orderly.unique (fun flight leads => by rw [found] at leads; cases leads)
    exact .inl ((kept.pending key flight).mpr waits)
  | joined _ found =>
    have kept := Cache.lookup_keeps orderly.unique (fun flight leads => by rw [found] at leads; cases leads)
    exact .inl ((kept.pending key flight).mpr waits)
  | led _ found =>
    obtain ⟨absent, _, after⟩ := Cache.lookup_leads found
    rw [System.move_cache, after, Cache.mem_withSlot]
    exact .inl (.inr ⟨waits, (Cache.slot?_eq_none _ _).mp absent _ waits⟩)
  | settled ready =>
    rename_i caller other k ending
    by_cases same : key = k
    · subst same
      have mine := (orderly.pending key other).mpr ⟨caller, by rw [ready]; rfl⟩
      cases Cache.eq_of_mem orderly.unique waits mine
      exact .inr ⟨caller, ending, ready, rfl⟩
    · have kept := (s.cache.settle_pending orderly.unique k (delivered ending)).2.2.2 key flight
      exact .inl (kept.mpr ⟨waits, same⟩)
  | invalidated name => exact .inl (((s.cache.invalidate_keeps orderly.unique name).pending key flight).mpr waits)
  | cleared => exact .inl (((s.cache.clear_keeps orderly.unique).pending key flight).mpr waits)
  | _ => exact .inl waits

theorem answer_received (step : Step s event next) {caller flight : Nat} {answer : Ending κ α}
    (waits : s.callers caller = .waiting flight) (answered : next.callers caller = .answered answer) :
    ∃ outcome, s.cache.received? flight = some outcome ∧ answer = some outcome := by
  cases step with
  | received here got =>
    obtain ⟨rfl, made⟩ := s.moved _ _ _ waits answered nofun
    rw [waits] at here
    cases here
    cases made
    exact ⟨_, got, rfl⟩
  | hit here | joined here | led here | ended _ here | settled here | published here | returned here =>
    obtain ⟨rfl, _⟩ := s.moved _ _ _ waits answered nofun
    rw [waits] at here
    cases here
  | invalidated | cleared | read =>
    rw [waits] at answered
    cases answered

omit [DecidableEq κ] in
theorem Orderly.received (orderly : Orderly events s) {flight : Nat} {outcome : Outcome κ α}
    (got : s.cache.received? flight = some outcome) :
    ∃ leader ending, .ended leader flight ending ∈ events ∧ outcome = delivered ending :=
  orderly.published flight outcome (Cache.received?_mem s.cache flight outcome got)

-- The leader of a flight can take its next step: its build may end in any way, or what is left is
-- to settle or to publish.
def Advances (s : System κ α) (leader flight : Nat) : Prop :=
  (∀ ending, ∃ next, Step s (.ended leader flight ending) next) ∨
    (∃ next, Step s (.settled leader flight) next) ∨ ∃ next, Step s (.published leader flight) next

theorem leader_advances {leader flight : Nat} (leads : (s.callers leader).leads? = some flight) :
    Advances s leader flight := by
  cases phase : s.callers leader with
  | building key other =>
    rw [phase] at leads
    cases leads
    exact .inl fun ending => ⟨_, .ended ending phase⟩
  | built key other ending =>
    rw [phase] at leads
    cases leads
    exact .inr (.inl ⟨_, .settled phase⟩)
  | settled other ending =>
    rw [phase] at leads
    cases leads
    exact .inr (.inr ⟨_, .published phase⟩)
  | idle | waiting | answered =>
    rw [phase] at leads
    cases leads

-- A caller that waits is not forgotten: its answer is there, or its leader can go on.
theorem Orderly.waiter_served (orderly : Orderly events s) {caller flight : Nat} (waits : s.callers caller = .waiting flight) :
    (∃ next, Step s (.received caller flight) next) ∨
      ∃ leader key, .joined caller key flight ∈ events ∧ .led leader key flight ∈ events ∧ Advances s leader flight := by
  obtain ⟨key, leader, joined, led⟩ := orderly.waiting caller flight (by rw [waits]; rfl)
  rcases orderly.delivers leader key flight led with leads | ⟨outcome, member⟩
  · exact .inr ⟨leader, key, joined, led, leader_advances leads⟩
  · obtain ⟨first, got⟩ := Cache.received?_of_mem s.cache flight outcome member
    exact .inl ⟨_, .received waits got⟩

theorem failure_leaves_no_slot {caller flight : Nat} {key : κ} {ending : Ending κ α} {e : KernelError}
    (ready : s.callers caller = .built key flight ending) (failed : delivered ending = .error e)
    (step : Step s (.settled caller flight) next) :
    next.cache.slot? key = none ∧ (next.cache.lookup key).2 = .leads next.cache.flights := by
  cases step with
  | settled here =>
    rw [ready] at here
    cases here
    rw [System.move_cache, failed]
    have absent := s.cache.settle_error key e
    exact ⟨absent, Cache.lookup_absent absent⟩

theorem cache_is_single_flight {capacity : Option Nat} (run : Run capacity events s) :
    -- One build runs for a key.
    (∀ a b key first second, s.callers a = .building key first → s.callers b = .building key second → a = b) ∧
    -- It starts only where the key has no slot.
    (∀ event next caller key flight, Step s event next → next.callers caller = .building key flight →
      s.callers caller ≠ .building key flight → s.cache.slot? key = none) ∧
    -- Its slot stays until its own leader settles.
    (∀ event next key flight, Step s event next → s.cache.slot? key = some (.pending flight) →
      next.cache.slot? key = some (.pending flight) ∨
        ∃ caller ending, s.callers caller = .built key flight ending ∧ event = .settled caller flight) ∧
    -- A flight has one leader and one ending.
    (∀ a b key other flight, .led a key flight ∈ events → .led b other flight ∈ events → a = b ∧ key = other) ∧
    (∀ a b flight first second, .ended a flight first ∈ events → .ended b flight second ∈ events →
      a = b ∧ first = second) ∧
    -- Who joined it is answered with what its leader's build came to, and with nothing else.
    (∀ event next caller flight answer, Step s event next → s.callers caller = .waiting flight →
      next.callers caller = .answered answer →
      ∃ leader key ending, .joined caller key flight ∈ events ∧ .led leader key flight ∈ events ∧
        .ended leader flight ending ∈ events ∧ answer = some (delivered ending)) ∧
    -- That answer comes as soon as the leader has gone through its steps.
    (∀ caller flight, s.callers caller = .waiting flight →
      (∃ next, Step s (.received caller flight) next) ∨
        ∃ leader key, .joined caller key flight ∈ events ∧ .led leader key flight ∈ events ∧ Advances s leader flight) ∧
    -- A failed build leaves no slot, and the next request builds again.
    (∀ next caller key flight ending e, s.callers caller = .built key flight ending → delivered ending = .error e →
      Step s (.settled caller flight) next →
      next.cache.slot? key = none ∧ (next.cache.lookup key).2 = .leads next.cache.flights) ∧
    -- A build that does not come to an end fails, too.
    ∃ e : KernelError, (delivered none : Outcome κ α) = .error e ∧ e.message = "compilation failed: compilation aborted" := by
  have orderly := run_orderly run
  refine ⟨?_, ?_, ?_, orderly.once, ?_, ?_, ?_, ?_, _, rfl, rfl⟩
  · intro a b key first second one two
    exact orderly.one_build one two
  · intro event next caller key flight step runs before
    exact starts_without_slot step runs before
  · intro event next key flight step waits
    have after := step_orderly orderly step
    rw [Cache.slot?_iff orderly.unique] at waits
    rw [Cache.slot?_iff after.unique]
    exact orderly.pending_stays step waits
  · intro a b flight first second one two
    obtain ⟨key, left⟩ := orderly.own a flight first one
    obtain ⟨other, right⟩ := orderly.own b flight second two
    exact ⟨(orderly.once a b key other flight left right).1, orderly.final a b flight first second one two⟩
  · intro event next caller flight answer step waits answered
    obtain ⟨outcome, got, rfl⟩ := answer_received step waits answered
    obtain ⟨leader, ending, ended, rfl⟩ := orderly.received got
    obtain ⟨key, first, joined, led⟩ := orderly.waiting caller flight (by rw [waits]; rfl)
    obtain ⟨k, own⟩ := orderly.own leader flight ending ended
    obtain ⟨rfl, rfl⟩ := orderly.once _ _ _ _ _ own led
    exact ⟨leader, k, ending, joined, led, ended, rfl⟩
  · intro caller flight waits
    exact orderly.waiter_served waits
  · intro next caller key flight ending e ready failed step
    exact failure_leaves_no_slot ready failed step

-- A flight that a second one of its key overtakes. Caller 1 waits for the build of caller 0, which
-- does not come to an end; between its settling and its publishing, caller 2 starts to build the key
-- again.
def overtaken : List (Event Nat Unit) :=
  [.published 0 0, .led 2 7 1, .settled 0 0, .ended 0 0 none, .cleared, .joined 1 7 0, .led 0 7 0]

theorem overtaken_run : ∃ s, Run (some 1) overtaken s ∧ s.callers 1 = .waiting 0 ∧ s.callers 2 = .building 7 1 := by
  have begun : Run (some 1) ([] : List (Event Nat Unit)) _ := .start
  have led := begun.step (.led rfl rfl : Step _ (.led 0 7 0) _)
  have joined := led.step (.joined rfl rfl : Step _ (.joined 1 7 0) _)
  have cleared := joined.step .cleared
  have ended := cleared.step (.ended none rfl : Step _ (.ended 0 0 none) _)
  have settled := ended.step (.settled rfl : Step _ (.settled 0 0) _)
  have again := settled.step (.led rfl rfl : Step _ (.led 2 7 1) _)
  exact ⟨_, again.step (.published rfl : Step _ (.published 0 0) _), rfl, rfl⟩

theorem overtaken_waiter_answered : ∃ s, Run (some 1) overtaken s ∧ s.callers 1 = .waiting 0 ∧
    s.callers 2 = .building 7 1 ∧
    ∀ event next answer, Step s event next → next.callers 1 = .answered answer → answer = some Cache.aborted := by
  obtain ⟨s, run, waits, builds⟩ := overtaken_run
  obtain ⟨_, _, _, _, _, answers, _⟩ := cache_is_single_flight run
  refine ⟨s, run, waits, builds, ?_⟩
  intro event next answer step answered
  obtain ⟨leader, key, ending, _, _, ended, rfl⟩ := answers event next 1 0 answer step waits answered
  have missing : leader = 0 ∧ ending = none := by simpa [overtaken] using ended
  rw [missing.2]
  rfl

end GridKernel.Flights
