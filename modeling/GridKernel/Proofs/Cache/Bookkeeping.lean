import GridKernel.Proofs.Cache.Flights
import GridKernel.Proofs.Cache.Queue

namespace GridKernel.Flights

variable {κ α : Type} [DecidableEq κ]

-- The steps of an interleaving from the latest back, each with the state it was taken in.
abbrev Past (κ α : Type) := List (System κ α × Event κ α)

inductive Walk (capacity : Option Nat) : Past κ α → System κ α → Prop where
  | start : Walk capacity [] (.start capacity)
  | step {past : Past κ α} {s next : System κ α} {event : Event κ α} (before : Walk capacity past s)
      (step : Step s event next) : Walk capacity ((s, event) :: past) next

variable {capacity : Option Nat} {past : Past κ α} {s next : System κ α} {event : Event κ α}

theorem Walk.run (walk : Walk capacity past s) : Run capacity (past.map Prod.snd) s := by
  induction walk with
  | start => exact .start
  | step _ step ih => exact .step ih step

def Event.isRequest : Event κ α → Bool
  | hit .. | joined .. | led .. => true
  | _ => false

def requests (past : Past κ α) : Nat := past.countP fun step => step.2.isRequest

def clears (s : System κ α) : Event κ α → Nat
  | .cleared => s.cache.slots.length - s.cache.clear.slots.length
  | _ => 0

def cleared : Past κ α → Nat
  | [] => 0
  | step :: past => clears step.1 step.2 + cleared past

def stores? (s : System κ α) : Event κ α → Option κ
  | .settled caller _ =>
    match s.callers caller with
    | .built key _ (some (.ok _)) => some key
    | _ => none
  | _ => none

-- The time at which a program was last stored under a key, where the first step is at time one.
def storedAt : Past κ α → κ → Nat
  | [], _ => 0
  | (s, event) :: past, key => if stores? s event = some key then past.length + 1 else storedAt past key

theorem storedAt_le (past : Past κ α) (key : κ) : storedAt past key ≤ past.length := by
  induction past with
  | nil => exact Nat.le_refl 0
  | cons step past ih =>
    rw [storedAt, List.length_cons]
    split
    · exact Nat.le_refl _
    · exact Nat.le_succ_of_le ih

structure Booked (capacity : Option Nat) (past : Past κ α) (s : System κ α) : Prop where
  bound : s.cache.capacity = capacity.map (max · 1)
  balanced : s.cache.Balanced (requests past) (cleared past)
  queued : s.cache.Queued (storedAt past)

theorem start_booked (capacity : Option Nat) : Booked capacity [] (System.start capacity : System κ α) := by
  refine ⟨rfl, ⟨rfl, rfl, rfl⟩, ?_, .nil, ?_, fun _ => ⟨rfl, rfl⟩⟩
  · intro limit _
    exact ⟨List.nodup_nil, fun key => by simp [System.start, Cache.new, Cache.Ready]⟩
  · intro limit bounded
    obtain ⟨asked, _, rfl⟩ := Option.map_eq_some_iff.mp bounded
    exact ⟨by omega, Nat.zero_le _⟩

omit [DecidableEq κ] in
theorem requests_cons : requests ((s, event) :: past) = requests past + if event.isRequest then 1 else 0 :=
  List.countP_cons

omit [DecidableEq κ] in
theorem cleared_cons : cleared ((s, event) :: past) = cleared past + clears s event := by
  rw [cleared, Nat.add_comm]

theorem storedAt_cons (nothing : stores? s event = none) : storedAt ((s, event) :: past) = storedAt past := by
  funext key
  rw [storedAt, nothing, if_neg nofun]

theorem Booked.request (booked : Booked capacity past s) (key : κ) (asks : event.isRequest = true)
    (after : next.cache = (s.cache.lookup key).1) : Booked capacity ((s, event) :: past) next := by
  have nothing : stores? s event = none ∧ clears s event = 0 := by
    cases event with
    | hit | joined | led => exact ⟨rfl, rfl⟩
    | _ => cases asks
  have bound : (s.cache.lookup key).1.capacity = s.cache.capacity := by
    rcases s.cache.lookup_parts key with ⟨_, _, _, eq⟩ | ⟨_, _, _, eq⟩ | ⟨_, _, eq⟩ <;> rw [eq]
  refine ⟨?_, ?_, ?_⟩
  · rw [after, bound, booked.bound]
  · rw [after, requests_cons, asks, cleared_cons, nothing.2]
    exact booked.balanced.lookup key
  · rw [after, storedAt_cons nothing.1]
    exact booked.queued.lookup key

theorem Booked.other (booked : Booked capacity past s) (asks : event.isRequest = false)
    (nothing : stores? s event = none) (none : clears s event = 0) (bound : next.cache.capacity = s.cache.capacity)
    (balanced : next.cache.Balanced (requests past) (cleared past)) (queued : next.cache.Queued (storedAt past)) :
    Booked capacity ((s, event) :: past) next := by
  refine ⟨bound.trans booked.bound, ?_, ?_⟩
  · rw [requests_cons, asks, cleared_cons, none]
    exact balanced
  · rw [storedAt_cons nothing]
    exact queued

theorem Booked.settled {events : List (Event κ α)} {caller flight : Nat} {key : κ} {ending : Ending κ α}
    (booked : Booked capacity past s) (orderly : Orderly events s) (ready : s.callers caller = .built key flight ending) :
    Booked capacity ((s, .settled caller flight) :: past)
      (s.move caller (.settled flight ending) (s.cache.settle key (delivered ending))) := by
  have waits := (orderly.pending key flight).mpr ⟨caller, by rw [ready]; rfl⟩
  have balanced := booked.balanced.settle booked.queued orderly.unique waits (delivered ending)
  have bound := s.cache.settle_capacity key (delivered ending)
  have failed (e : KernelError) (error : delivered ending = .error e) :
      Booked capacity ((s, .settled caller flight) :: past)
        (s.move caller (.settled flight ending) (s.cache.settle key (delivered ending))) := by
    have nothing : stores? s (.settled caller flight) = none := by
      rw [stores?, ready]
      cases ending with
      | none => rfl
      | some outcome =>
        cases error
        rfl
    refine booked.other rfl nothing rfl bound balanced ?_
    rw [System.move_cache, error]
    exact booked.queued.settle_error orderly.unique waits e
  cases ending with
  | none => exact failed _ rfl
  | some outcome =>
    cases outcome with
    | error e => exact failed e rfl
    | ok program =>
      have here : stores? s (.settled caller flight) = some key := by rw [stores?, ready]
      refine ⟨bound.trans booked.bound, ?_, ?_⟩
      · rw [requests_cons, cleared_cons]
        exact balanced
      · refine booked.queued.settle_ok orderly.unique waits program ?_ ?_
        · intro other apart
          rw [storedAt, here, if_neg]
          rintro ⟨⟩
          exact apart rfl
        · intro other
          rw [storedAt, if_pos here]
          exact Nat.lt_succ_of_le (storedAt_le past other)

theorem step_booked {events : List (Event κ α)} (booked : Booked capacity past s) (orderly : Orderly events s)
    (step : Step s event next) : Booked capacity ((s, event) :: past) next := by
  cases step with
  | hit _ _ | joined _ _ | led _ _ => exact booked.request _ rfl rfl
  | settled ready => exact booked.settled orderly ready
  | invalidated name =>
    have bound : (s.cache.invalidate name).1.capacity = s.cache.capacity := by
      unfold Cache.invalidate
      dsimp only
      split <;> rfl
    exact booked.other rfl rfl rfl bound (booked.balanced.invalidate name)
      (booked.queued.invalidate orderly.unique name)
  | cleared =>
    refine ⟨booked.bound, ?_, ?_⟩
    · rw [requests_cons, cleared_cons]
      exact booked.balanced.clear
    · rw [storedAt_cons rfl]
      exact booked.queued.clear
  | published _ =>
    obtain ⟨asked, builds, programs⟩ := booked.balanced
    exact booked.other rfl rfl rfl rfl ⟨asked, builds, programs⟩
      (booked.queued.untouched rfl rfl rfl rfl fun _ => Iff.rfl)
  | ended _ _ | received _ _ | returned _ | read _ =>
    exact booked.other rfl rfl rfl rfl booked.balanced booked.queued

theorem walk_booked (walk : Walk capacity past s) : Booked capacity past s := by
  induction walk with
  | start => exact start_booked capacity
  | step before step ih => exact step_booked ih (run_orderly before.run) step

theorem settled_cache {caller flight : Nat} {key : κ} {ending : Ending κ α}
    (ready : s.callers caller = .built key flight ending) (step : Step s (.settled caller flight) next) :
    next.cache = s.cache.settle key (delivered ending) := by
  cases step with
  | settled here =>
    rw [ready] at here
    cases here
    rfl

theorem cache_books_balance (walk : Walk capacity past s) :
    -- A bounded cache keeps to its bound, and its queue holds the finished keys in the order they settled.
    (∀ bound, capacity = some bound →
      s.cache.size ≤ max bound 1 ∧ s.cache.order.Nodup ∧
      (∀ key, key ∈ s.cache.order ↔ ∃ program, s.cache.slot? key = some (.ready program)) ∧
      s.cache.order.Pairwise (fun first later => storedAt past first < storedAt past later) ∧
      -- A program that is stored pushes out the surplus from the front, and nothing else changes.
      ∀ caller key flight program next, s.callers caller = .built key flight (some (.ok program)) →
        Step s (.settled caller flight) next →
        next.cache.order = s.cache.order.drop (s.cache.size + 1 - max bound 1) ++ [key] ∧
        ∀ other, next.cache.slot? other =
          if other = key then some (.ready program)
          else if other ∈ s.cache.order.take (s.cache.size + 1 - max bound 1) then none else s.cache.slot? other) ∧
    -- An unbounded cache has an empty queue and evicts nothing.
    (capacity = none →
      s.cache.order = [] ∧ s.cache.stats.evictions = 0 ∧
      ∀ caller key flight program next, s.callers caller = .built key flight (some (.ok program)) →
        Step s (.settled caller flight) next →
        ∀ other, next.cache.slot? other = if other = key then some (.ready program) else s.cache.slot? other) ∧
    -- The counters balance.
    s.cache.stats.hits + s.cache.stats.misses + s.cache.stats.waits = requests past ∧
    s.cache.stats.misses = s.cache.stats.compiles + s.cache.stats.failures + s.cache.building ∧
    s.cache.stats.compiles =
      s.cache.size + s.cache.stats.evictions + s.cache.stats.invalidations + cleared past := by
  have orderly := run_orderly walk.run
  obtain ⟨limit, balanced, queued⟩ := walk_booked walk
  have waits {caller flight : Nat} {key : κ} {ending : Ending κ α} (ready : s.callers caller = .built key flight ending) :
      (key, .pending flight) ∈ s.cache.slots :=
    (orderly.pending key flight).mpr ⟨caller, by rw [ready]; rfl⟩
  refine ⟨?_, ?_, balanced.requests, balanced.builds, balanced.programs⟩
  · rintro bound rfl
    have lists := queued.lists _ limit
    obtain ⟨positive, room⟩ := queued.room _ limit
    refine ⟨room, lists.once, fun key => ?_, queued.ordered, ?_⟩
    · simp only [lists.ready, Cache.Ready, Cache.slot?_iff orderly.unique]
    · intro caller key flight program next ready step
      have slots := Cache.settle_slot? program limit positive orderly.unique lists (waits ready)
      have after := Cache.settle_bounded program limit positive orderly.unique lists (waits ready)
      rw [settled_cache ready step]
      exact ⟨congrArg Cache.order after, slots⟩
  · rintro rfl
    obtain ⟨empty, evicted⟩ := queued.unbounded limit
    refine ⟨empty, evicted, ?_⟩
    intro caller key flight program next ready step other
    rw [settled_cache ready step, delivered, Option.getD_some, Cache.settle_unbounded program limit]
    exact Cache.slot?_withSlot key other _

-- A cache for no program at all still holds one: the build of key 8 pushes out key 7, for which
-- another caller is waiting all the while.
theorem pushed_out_walk : ∃ (past : Past Nat Unit) (s : System Nat Unit), Walk (some 0) past s ∧
    s.cache.order = [8] ∧ s.cache.stats.evictions = 1 ∧ s.callers 1 = .waiting 0 ∧ requests past = 3 := by
  have begun : Walk (some 0) ([] : Past Nat Unit) _ := .start
  have led := begun.step (.led rfl rfl : Step _ (.led 0 7 0) _)
  have joined := led.step (.joined rfl rfl : Step _ (.joined 1 7 0) _)
  have ended := joined.step (.ended (some (.ok ⟨7, [], ()⟩)) rfl : Step _ (.ended 0 0 _) _)
  have settled := ended.step (.settled rfl : Step _ (.settled 0 0) _)
  have second := settled.step (.led rfl rfl : Step _ (.led 2 8 1) _)
  have done := second.step (.ended (some (.ok ⟨8, [], ()⟩)) rfl : Step _ (.ended 2 1 _) _)
  exact ⟨_, _, done.step (.settled rfl : Step _ (.settled 2 1) _), rfl, rfl, rfl, rfl⟩

theorem pushed_out_balanced : ∃ (past : Past Nat Unit) (s : System Nat Unit), Walk (some 0) past s ∧
    s.cache.order = [8] ∧ s.cache.stats.evictions = 1 ∧ s.cache.size ≤ 1 ∧
    (∃ program, s.cache.slot? 8 = some (.ready program)) ∧
    s.cache.stats.hits + s.cache.stats.misses + s.cache.stats.waits = 3 ∧
    s.cache.stats.compiles = s.cache.size + 1 + s.cache.stats.invalidations + cleared past := by
  obtain ⟨past, s, walk, order, evictions, _, asked⟩ := pushed_out_walk
  obtain ⟨bounded, _, requests, _, programs⟩ := cache_books_balance walk
  obtain ⟨room, _, ready, _⟩ := bounded 0 rfl
  rw [evictions] at programs
  exact ⟨past, s, walk, order, evictions, room, (ready 8).mp (by rw [order]; decide), requests.trans asked, programs⟩

end GridKernel.Flights
