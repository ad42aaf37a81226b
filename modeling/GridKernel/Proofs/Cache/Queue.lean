import GridKernel.Proofs.Cache.Slots
import Mathlib.Data.List.Perm.Basic

namespace GridKernel.Cache

variable {κ α : Type} [DecidableEq κ] {c : Cache κ α}

def Ready (c : Cache κ α) (key : κ) : Prop := ∃ program, (key, .ready program) ∈ c.slots

def building (c : Cache κ α) : Nat := c.slots.countP fun entry => !isReady entry.2

-- A queue holds the finished keys, each once.
structure Lists (c : Cache κ α) (queue : List κ) : Prop where
  once : queue.Nodup
  ready : ∀ key, key ∈ queue ↔ c.Ready key

omit [DecidableEq κ] in
theorem length_slots (c : Cache κ α) : c.slots.length = c.size + c.building := by
  rw [size, building, List.length_eq_countP_add_countP (fun entry => isReady entry.2)]
  simp

omit [DecidableEq κ] in
theorem mem_ready_keys (c : Cache κ α) (key : κ) :
    key ∈ (c.slots.filter fun entry => isReady entry.2).map Prod.fst ↔ c.Ready key := by
  constructor
  · intro member
    obtain ⟨⟨_, slot⟩, inside, rfl⟩ := List.mem_map.mp member
    obtain ⟨inside, finished⟩ := List.mem_filter.mp inside
    cases slot with
    | ready program => exact ⟨program, inside⟩
    | pending => cases finished
  · rintro ⟨program, inside⟩
    exact List.mem_map_of_mem (List.mem_filter.mpr ⟨inside, rfl⟩)

omit [DecidableEq κ] in
theorem Lists.length {queue : List κ} (lists : c.Lists queue) (unique : c.Unique) : queue.length = c.size := by
  have once : ((c.slots.filter fun entry => isReady entry.2).map Prod.fst).Nodup :=
    (List.filter_sublist.map Prod.fst).nodup unique
  have same : queue.Perm ((c.slots.filter fun entry => isReady entry.2).map Prod.fst) := by
    rw [List.perm_ext_iff_of_nodup lists.once once]
    intro key
    rw [lists.ready, mem_ready_keys]
  rw [same.length_eq, List.length_map, size, List.countP_eq_length_filter]

-- A key has one slot, so taking it away takes away one entry.
theorem perm_without {key : κ} {slot : Slot κ α} (unique : c.Unique) (member : (key, slot) ∈ c.slots) :
    c.slots.Perm ((key, slot) :: without key c.slots) := by
  have once : c.slots.Nodup := List.Nodup.of_map _ unique
  rw [List.perm_ext_iff_of_nodup once]
  · intro entry
    rw [List.mem_cons, mem_without]
    constructor
    · intro inside
      by_cases same : entry.1 = key
      · obtain ⟨_, other⟩ := entry
        cases same
        rw [eq_of_mem unique inside member]
        exact .inl rfl
      · exact .inr ⟨inside, same⟩
    · rintro (rfl | ⟨inside, _⟩)
      · exact member
      · exact inside
  · rw [List.nodup_cons, mem_without]
    exact ⟨fun inside => inside.2 rfl, List.filter_sublist.nodup once⟩

theorem without_absent {key : κ} (absent : c.slot? key = none) : without key c.slots = c.slots := by
  rw [without, List.filter_eq_self]
  intro entry member
  exact decide_eq_true ((slot?_eq_none c key).mp absent entry member)

theorem get?_of_ready {key : κ} (unique : c.Unique) (ready : c.Ready key) : ∃ program, c.get? key = some program := by
  obtain ⟨program, member⟩ := ready
  refine ⟨program, ?_⟩
  rw [get?, (slot?_iff unique key (.ready program)).mpr member]

-- Eviction takes the surplus off the front of the queue and frees the slots of just those keys.
theorem evict_eq (capacity : Nat) (queue : List κ) (c : Cache κ α) (unique : c.Unique) (lists : c.Lists queue) :
    evict capacity queue c = { c with
      slots := c.slots.filter fun entry => entry.1 ∉ queue.take (c.size - capacity)
      order := queue.drop (c.size - capacity)
      stats.evictions := c.stats.evictions + (c.size - capacity) } := by
  induction queue generalizing c with
  | nil =>
    have empty : c.size = 0 := (lists.length unique).symm
    simp [evict, empty]
  | cons oldest rest ih =>
    rw [evict]
    by_cases room : c.size ≤ capacity
    · simp [room]
    · rw [if_neg room]
      obtain ⟨program, found⟩ := get?_of_ready unique ((lists.ready oldest).mp List.mem_cons_self)
      obtain ⟨fresh, once⟩ := List.nodup_cons.mp lists.once
      generalize freed : ({ c with
        slots := without oldest c.slots, stats.evictions := c.stats.evictions + 1 } : Cache κ α) = d
      have uniqueAfter : d.Unique := by
        rw [← freed]
        exact unique_sublist unique List.filter_sublist
      have listsAfter : d.Lists rest := by
        refine ⟨once, fun key => ?_⟩
        have before := lists.ready key
        rw [List.mem_cons] at before
        subst freed
        simp only [Ready, mem_without] at before ⊢
        constructor
        · intro member
          obtain ⟨p, inside⟩ := before.mp (.inr member)
          refine ⟨p, inside, ?_⟩
          rintro rfl
          exact fresh member
        · rintro ⟨p, inside, apart⟩
          exact (before.mpr ⟨p, inside⟩).resolve_left apart
      have count : d.size + 1 = c.size := by
        rw [← lists.length unique, ← listsAfter.length uniqueAfter, List.length_cons]
      obtain ⟨n, surplus⟩ : ∃ n, c.size - capacity = n + 1 := ⟨c.size - capacity - 1, by omega⟩
      have surplusAfter : d.size - capacity = n := by omega
      rw [found]
      dsimp only
      rw [ih d uniqueAfter listsAfter, surplus, surplusAfter]
      subst freed
      simp only [without, List.filter_filter, List.take_succ_cons, List.drop_succ_cons, List.mem_cons, not_or,
        Bool.decide_and, Nat.add_assoc, Nat.add_comm 1 n]
      congr 2
      funext entry
      exact Bool.and_comm _ _

theorem evict_capacity (capacity : Nat) (queue : List κ) (c : Cache κ α) :
    (evict capacity queue c).capacity = c.capacity := by
  induction queue generalizing c with
  | nil => rfl
  | cons oldest rest ih =>
    rw [evict]
    split
    · rfl
    · split
      · exact ih _
      · exact ih c

theorem settle_capacity (c : Cache κ α) (key : κ) (outcome : Outcome κ α) :
    (c.settle key outcome).capacity = c.capacity := by
  cases outcome with
  | error e => rfl
  | ok program =>
    unfold settle
    dsimp only
    split
    · rfl
    · exact evict_capacity _ _ _

theorem dropped_lists {queue : List κ} (lists : c.Lists queue) (n : Nat) :
    ({ c with slots := c.slots.filter fun entry => entry.1 ∉ queue.take n } : Cache κ α).Lists (queue.drop n) := by
  refine ⟨(List.drop_sublist n queue).nodup lists.once, fun key => ?_⟩
  have apart := List.disjoint_take_drop lists.once (Nat.le_refl n)
  have split : key ∈ queue ↔ key ∈ queue.take n ∨ key ∈ queue.drop n := by
    rw [← List.mem_append, List.take_append_drop]
  simp only [Ready, List.mem_filter, decide_eq_true_iff]
  constructor
  · intro late
    obtain ⟨program, inside⟩ := (lists.ready key).mp (split.mpr (.inr late))
    exact ⟨program, inside, fun early => apart early late⟩
  · rintro ⟨program, inside, kept⟩
    exact (split.mp ((lists.ready key).mpr ⟨program, inside⟩)).resolve_left kept

theorem slot?_filter (keeps : κ → Bool) (key : κ) :
    ({ c with slots := c.slots.filter fun entry => keeps entry.1 } : Cache κ α).slot? key =
      if keeps key then c.slot? key else none := by
  have same (entry : κ × Slot κ α) : decide (keeps entry.1 = true ∧ decide (entry.1 = key) = true) =
      (keeps key && decide (entry.1 = key)) := by
    by_cases here : entry.1 = key
    · simp [here]
    · simp [here]
  rw [slot?, List.find?_filter, funext same, slot?]
  cases keeps key <;> simp

theorem slot?_withSlot (key other : κ) (slot : Slot κ α) :
    ({ c with slots := withSlot key slot c.slots } : Cache κ α).slot? other =
      if other = key then some slot else c.slot? other := by
  have rest := slot?_filter (c := c) (fun k => decide (k ≠ key)) other
  simp only [slot?, withSlot, without] at rest ⊢
  by_cases same : other = key
  · simp [same]
  · rw [List.find?_cons_of_neg (by simpa using Ne.symm same), rest]
    simp [same]

def stored (c : Cache κ α) (key : κ) (program : CachedProgram κ α) : Cache κ α :=
  { c with slots := withSlot key (.ready program) c.slots, stats.compiles := c.stats.compiles + 1 }

section
variable {key : κ} {flight : Nat} (program : CachedProgram κ α)

theorem stored_unique (key : κ) (unique : c.Unique) : (c.stored key program).Unique := unique_withSlot unique key _

theorem stored_counts (unique : c.Unique) (waits : (key, .pending flight) ∈ c.slots) :
    (c.stored key program).size = c.size + 1 ∧ (c.stored key program).building + 1 = c.building := by
  have split := perm_without unique waits
  have ready := split.countP_eq fun entry => isReady entry.2
  have pending := split.countP_eq fun entry => !isReady entry.2
  simp only [size, building, stored, withSlot, List.countP_cons, isReady] at ready pending ⊢
  simp at ready pending ⊢
  omega

theorem stored_lists {queue : List κ} (unique : c.Unique) (lists : c.Lists queue)
    (waits : (key, .pending flight) ∈ c.slots) : (c.stored key program).Lists (queue ++ [key]) := by
  have fresh : key ∉ queue := by
    intro member
    obtain ⟨p, inside⟩ := (lists.ready key).mp member
    cases eq_of_mem unique inside waits
  refine ⟨?_, fun other => ?_⟩
  · rw [List.nodup_append]
    refine ⟨lists.once, List.nodup_singleton key, ?_⟩
    intro a first b second same
    rw [List.mem_singleton] at second
    exact fresh (second ▸ same ▸ first)
  · rw [List.mem_append, List.mem_singleton, lists.ready]
    simp only [Ready, stored, mem_withSlot]
    constructor
    · rintro (⟨p, inside⟩ | rfl)
      · refine ⟨p, .inr ⟨inside, ?_⟩⟩
        rintro rfl
        cases eq_of_mem unique inside waits
      · exact ⟨program, .inl rfl⟩
    · rintro ⟨p, new | ⟨inside, _⟩⟩
      · cases new
        exact .inr rfl
      · exact .inl ⟨p, inside⟩

theorem settle_unbounded (unbounded : c.capacity = none) : c.settle key (.ok program) = c.stored key program := by
  simp only [settle, unbounded, stored]

-- One more program than fits pushes out the one settled longest ago, and never itself.
theorem settle_bounded {capacity : Nat} (bounded : c.capacity = some capacity) (positive : 1 ≤ capacity)
    (unique : c.Unique) (lists : c.Lists c.order) (waits : (key, .pending flight) ∈ c.slots) :
    c.settle key (.ok program) = { c.stored key program with
      slots := (c.stored key program).slots.filter fun entry => entry.1 ∉ c.order.take (c.size + 1 - capacity)
      order := c.order.drop (c.size + 1 - capacity) ++ [key]
      stats.evictions := c.stats.evictions + (c.size + 1 - capacity) } := by
  have length := lists.length unique
  have surplus : (c.stored key program).size - capacity = c.size + 1 - capacity := by
    rw [(stored_counts program unique waits).1]
  have settled : c.settle key (.ok program) = evict capacity (c.order ++ [key]) (c.stored key program) := by
    simp only [settle, bounded, stored]
  rw [settled, evict_eq _ _ _ (stored_unique program key unique) (stored_lists program unique lists waits), surplus,
    List.take_append_of_le_length (by omega), List.drop_append_of_le_length (by omega)]
  rfl

theorem settle_slot? {capacity : Nat} (bounded : c.capacity = some capacity) (positive : 1 ≤ capacity)
    (unique : c.Unique) (lists : c.Lists c.order) (waits : (key, .pending flight) ∈ c.slots) (other : κ) :
    (c.settle key (.ok program)).slot? other =
      if other = key then some (.ready program)
      else if other ∈ c.order.take (c.size + 1 - capacity) then none else c.slot? other := by
  have fresh : key ∉ c.order.take (c.size + 1 - capacity) := by
    intro taken
    obtain ⟨p, inside⟩ := (lists.ready key).mp (List.mem_of_mem_take taken)
    cases eq_of_mem unique inside waits
  have filtered := slot?_filter (c := c.stored key program)
    (fun k => decide (k ∉ c.order.take (c.size + 1 - capacity))) other
  have entered : (c.stored key program).slot? other = if other = key then some (.ready program) else c.slot? other :=
    slot?_withSlot key other _
  rw [settle_bounded program bounded positive unique lists waits]
  refine filtered.trans ?_
  rw [entered]
  by_cases same : other = key
  · simp [same, fresh]
  · by_cases taken : other ∈ c.order.take (c.size + 1 - capacity)
    · simp [same, taken]
    · simp [same, taken]

theorem settled_lists {capacity : Nat} (bounded : c.capacity = some capacity) (positive : 1 ≤ capacity)
    (unique : c.Unique) (lists : c.Lists c.order) (waits : (key, .pending flight) ∈ c.slots) :
    (c.settle key (.ok program)).Lists (c.settle key (.ok program)).order := by
  have length := lists.length unique
  have kept := dropped_lists (stored_lists program unique lists waits) (c.size + 1 - capacity)
  rw [List.take_append_of_le_length (by omega), List.drop_append_of_le_length (by omega)] at kept
  rw [settle_bounded program bounded positive unique lists waits]
  exact ⟨kept.once, kept.ready⟩

end

-- The counters account for every request, every build and every program.
structure Balanced (c : Cache κ α) (requests cleared : Nat) : Prop where
  requests : c.stats.hits + c.stats.misses + c.stats.waits = requests
  builds : c.stats.misses = c.stats.compiles + c.stats.failures + c.building
  programs : c.stats.compiles = c.size + c.stats.evictions + c.stats.invalidations + cleared

-- A bounded cache queues its finished keys by the time since when each is there, and has room for
-- them. An unbounded one has no use for a queue.
structure Queued (c : Cache κ α) (since : κ → Nat) : Prop where
  lists : ∀ capacity, c.capacity = some capacity → c.Lists c.order
  ordered : c.order.Pairwise fun first later => since first < since later
  room : ∀ capacity, c.capacity = some capacity → 1 ≤ capacity ∧ c.size ≤ capacity
  unbounded : c.capacity = none → c.order = [] ∧ c.stats.evictions = 0

section
variable {d : Cache κ α} {requests cleared : Nat} {since : κ → Nat} {key : κ} {flight : Nat}

omit [DecidableEq κ] in
theorem Queued.untouched (queued : c.Queued since) (order : d.order = c.order) (capacity : d.capacity = c.capacity)
    (size : d.size = c.size) (evictions : d.stats.evictions = c.stats.evictions)
    (ready : ∀ key, d.Ready key ↔ c.Ready key) : d.Queued since := by
  refine ⟨fun bound bounded => ?_, ?_, fun bound bounded => ?_, fun none => ?_⟩
  · have lists := queued.lists bound (capacity ▸ bounded)
    exact ⟨order ▸ lists.once, fun key => by rw [order, ready, lists.ready]⟩
  · rw [order]
    exact queued.ordered
  · rw [size]
    exact queued.room bound (capacity ▸ bounded)
  · rw [order, evictions]
    exact queued.unbounded (capacity ▸ none)

omit [DecidableEq κ] in
theorem building_filter (keeps : κ × Slot κ α → Bool)
    (spared : ∀ key flight, (key, .pending flight) ∈ c.slots → keeps (key, .pending flight) = true) :
    ({ c with slots := c.slots.filter keeps } : Cache κ α).building = c.building := by
  simp only [building, List.countP_filter]
  apply List.countP_congr
  rintro ⟨key, slot⟩ member
  cases slot with
  | ready => simp [isReady]
  | pending flight => simp [isReady, spared key flight member]

theorem lead_counts (flight : Nat) (absent : c.slot? key = none) :
    let after : Cache κ α := { c with slots := withSlot key (.pending flight) c.slots }
    after.size = c.size ∧ after.building = c.building + 1 := by
  simp [size, building, withSlot, without_absent absent, isReady]

theorem Balanced.lookup (balanced : c.Balanced requests cleared) (key : κ) :
    (c.lookup key).1.Balanced (requests + 1) cleared := by
  obtain ⟨asked, builds, programs⟩ := balanced
  rcases c.lookup_parts key with ⟨_, _, _, after⟩ | ⟨_, _, _, after⟩ | ⟨absent, _, after⟩
  · rw [after]
    refine ⟨?_, builds, programs⟩
    dsimp only
    omega
  · rw [after]
    refine ⟨?_, builds, programs⟩
    dsimp only
    omega
  · obtain ⟨sizes, pending⟩ := lead_counts c.flights absent
    rw [after]
    refine ⟨?_, ?_, ?_⟩
    · dsimp only
      omega
    · change c.stats.misses + 1 = c.stats.compiles + c.stats.failures + building { c with slots := _ }
      rw [pending]
      omega
    · change c.stats.compiles = size { c with slots := _ } + c.stats.evictions + c.stats.invalidations + cleared
      rw [sizes]
      exact programs

theorem Queued.lookup (queued : c.Queued since) (key : κ) : (c.lookup key).1.Queued since := by
  rcases c.lookup_parts key with ⟨_, _, _, after⟩ | ⟨_, _, _, after⟩ | ⟨absent, _, after⟩
  · rw [after]
    exact queued.untouched rfl rfl rfl rfl fun _ => Iff.rfl
  · rw [after]
    exact queued.untouched rfl rfl rfl rfl fun _ => Iff.rfl
  · rw [after]
    refine queued.untouched rfl rfl (lead_counts _ absent).1 rfl fun other => ?_
    simp only [Ready, withSlot, without_absent absent, List.mem_cons]
    simp

theorem freed_counts (unique : c.Unique) (waits : (key, .pending flight) ∈ c.slots) :
    let after : Cache κ α := { c with slots := without key c.slots }
    after.size = c.size ∧ after.building + 1 = c.building := by
  have split := perm_without unique waits
  have ready := split.countP_eq fun entry => isReady entry.2
  have pending := split.countP_eq fun entry => !isReady entry.2
  simp only [size, building, List.countP_cons, isReady] at ready pending ⊢
  simp at ready pending ⊢
  omega

theorem freed_ready (unique : c.Unique) (waits : (key, .pending flight) ∈ c.slots) (other : κ) :
    ({ c with slots := without key c.slots } : Cache κ α).Ready other ↔ c.Ready other := by
  simp only [Ready, mem_without]
  constructor
  · rintro ⟨p, inside, _⟩
    exact ⟨p, inside⟩
  · rintro ⟨p, inside⟩
    refine ⟨p, inside, ?_⟩
    rintro rfl
    cases eq_of_mem unique inside waits

theorem settled_counts (program : CachedProgram κ α) (queued : c.Queued since) (unique : c.Unique)
    (waits : (key, .pending flight) ∈ c.slots) :
    let after := c.settle key (.ok program)
    after.building + 1 = c.building ∧
      after.size + after.stats.evictions = c.size + 1 + c.stats.evictions ∧
      after.stats = { c.stats with compiles := c.stats.compiles + 1, evictions := after.stats.evictions } := by
  obtain ⟨size, building⟩ := stored_counts program unique waits
  cases bounded : c.capacity with
  | none =>
    rw [settle_unbounded program bounded]
    refine ⟨building, ?_, rfl⟩
    rw [size]
    rfl
  | some capacity =>
    have lists := queued.lists capacity bounded
    have positive := (queued.room capacity bounded).1
    have length := lists.length unique
    have ended := (settled_lists program bounded positive unique lists waits).length
      (c.settle_pending unique key (.ok program)).1
    rw [settle_bounded program bounded positive unique lists waits] at ended ⊢
    refine ⟨?_, ?_, rfl⟩
    · rw [← building]
      congr 1
      refine building_filter (c := c.stored key program) _ fun other flight inside => ?_
      rw [decide_eq_true_iff]
      intro taken
      obtain ⟨p, ready⟩ := ((stored_lists program unique lists waits).ready other).mp
        (List.mem_append_left _ (List.mem_of_mem_take taken))
      cases eq_of_mem (stored_unique program key unique) ready inside
    · rw [← ended]
      simp only [List.length_append, List.length_drop, List.length_singleton]
      omega

theorem Balanced.settle (balanced : c.Balanced requests cleared) (queued : c.Queued since) (unique : c.Unique)
    (waits : (key, .pending flight) ∈ c.slots) (outcome : Outcome κ α) :
    (c.settle key outcome).Balanced requests cleared := by
  obtain ⟨asked, builds, programs⟩ := balanced
  cases outcome with
  | error e =>
    obtain ⟨sizes, pending⟩ := freed_counts unique waits
    refine ⟨asked, ?_, ?_⟩
    · change c.stats.misses = c.stats.compiles + (c.stats.failures + 1) + building { c with slots := without key c.slots }
      omega
    · change c.stats.compiles = size { c with slots := without key c.slots } + c.stats.evictions +
        c.stats.invalidations + cleared
      rw [sizes]
      exact programs
  | ok program =>
    obtain ⟨pending, sizes, stats⟩ := settled_counts program queued unique waits
    generalize c.settle key (.ok program) = after at pending sizes stats ⊢
    refine ⟨?_, ?_, ?_⟩
    · rw [stats]
      exact asked
    · rw [stats]
      dsimp only
      omega
    · rw [stats]
      dsimp only
      omega

theorem Queued.settle_error (queued : c.Queued since) (unique : c.Unique) (waits : (key, .pending flight) ∈ c.slots)
    (e : KernelError) : (c.settle key (.error e)).Queued since :=
  queued.untouched rfl rfl (freed_counts unique waits).1 rfl (freed_ready unique waits)

-- A program joins the queue at its end, since it is the latest of all.
theorem Queued.settle_ok {now : κ → Nat} (queued : c.Queued since) (unique : c.Unique)
    (waits : (key, .pending flight) ∈ c.slots) (program : CachedProgram κ α)
    (kept : ∀ other, other ≠ key → now other = since other) (latest : ∀ other, since other < now key) :
    (c.settle key (.ok program)).Queued now := by
  cases bounded : c.capacity with
  | none =>
    rw [settle_unbounded program bounded]
    obtain ⟨empty, evicted⟩ := queued.unbounded bounded
    have none : (c.stored key program).capacity = none := bounded
    have order : (c.stored key program).order = [] := empty
    refine ⟨?_, ?_, ?_, fun _ => ⟨order, evicted⟩⟩
    · simp [none]
    · rw [order]
      exact .nil
    · simp [none]
  | some capacity =>
    have lists := queued.lists capacity bounded
    have length := lists.length unique
    obtain ⟨positive, room⟩ := queued.room capacity bounded
    have after := settled_lists program bounded positive unique lists waits
    have size := after.length (c.settle_pending unique key (.ok program)).1
    rw [settle_bounded program bounded positive unique lists waits] at after size ⊢
    have same : (c.stored key program).capacity = some capacity := bounded
    refine ⟨fun _ _ => after, ?_, ?_, ?_⟩
    · have fresh (other : κ) (member : other ∈ c.order) : other ≠ key := by
        rintro rfl
        obtain ⟨p, inside⟩ := (lists.ready other).mp member
        cases eq_of_mem unique inside waits
      dsimp only
      rw [List.pairwise_append]
      refine ⟨?_, List.pairwise_singleton _ _, ?_⟩
      · refine (queued.ordered.sublist (List.drop_sublist _ _)).imp_of_mem ?_
        intro first later left right before
        rw [kept first (fresh first (List.mem_of_mem_drop left)), kept later (fresh later (List.mem_of_mem_drop right))]
        exact before
      · intro other member last single
        rw [List.mem_singleton.mp single, kept other (fresh other (List.mem_of_mem_drop member))]
        exact latest other
    · intro bound found
      cases same.symm.trans found
      refine ⟨positive, ?_⟩
      rw [← size]
      simp only [List.length_append, List.length_drop, List.length_singleton]
      omega
    · intro none
      cases same.symm.trans none

omit [DecidableEq κ] in
theorem size_filter (keeps : κ × Slot κ α → Bool)
    (spared : ∀ key flight, (key, .pending flight) ∈ c.slots → keeps (key, .pending flight) = true) :
    ({ c with slots := c.slots.filter keeps } : Cache κ α).size + (c.slots.length - (c.slots.filter keeps).length) =
      c.size := by
  have before := length_slots c
  have after := length_slots { c with slots := c.slots.filter keeps }
  have pending := building_filter keeps spared
  have fewer := List.length_filter_le keeps c.slots
  dsimp only at after
  omega

theorem Balanced.invalidate (balanced : c.Balanced requests cleared) (name : String) :
    (c.invalidate name).1.Balanced requests cleared := by
  obtain ⟨asked, builds, programs⟩ := balanced
  have spared (key : κ) (flight : Nat) (_ : (key, .pending flight) ∈ c.slots) :
      (!uses name (.pending flight : Slot κ α)) = true := rfl
  have sizes := size_filter (fun entry => !uses name entry.2) spared
  have pending := building_filter (fun entry => !uses name entry.2) spared
  unfold Cache.invalidate
  dsimp only
  split
  · exact ⟨asked, builds, programs⟩
  · refine ⟨asked, ?_, ?_⟩
    · change c.stats.misses = c.stats.compiles + c.stats.failures + building { c with slots := _ }
      rw [pending]
      exact builds
    · change c.stats.compiles = size { c with slots := _ } + c.stats.evictions + (c.stats.invalidations + _) + cleared
      omega

theorem Queued.invalidate (queued : c.Queued since) (unique : c.Unique) (name : String) :
    (c.invalidate name).1.Queued since := by
  have sizes := size_filter (c := c) (fun entry => !uses name entry.2) fun _ _ _ => rfl
  unfold Cache.invalidate
  dsimp only
  split
  · exact queued
  · refine ⟨fun capacity bounded => ?_, queued.ordered.sublist List.filter_sublist,
      fun capacity bounded => ?_, fun none => ?_⟩
    · have lists := queued.lists capacity bounded
      refine ⟨List.filter_sublist.nodup lists.once, fun key => ?_⟩
      simp only [List.mem_filter, lists.ready, Ready, List.any_eq_true, decide_eq_true_iff]
      constructor
      · rintro ⟨⟨program, inside⟩, ⟨_, slot⟩, ⟨other, kept⟩, rfl⟩
        cases eq_of_mem unique inside other
        exact ⟨program, inside, kept⟩
      · rintro ⟨program, inside, kept⟩
        exact ⟨⟨program, inside⟩, _, ⟨inside, kept⟩, rfl⟩
    · obtain ⟨positive, room⟩ := queued.room capacity bounded
      refine ⟨positive, ?_⟩
      change size { c with slots := _ } ≤ capacity
      omega
    · obtain ⟨empty, evicted⟩ := queued.unbounded none
      rw [empty]
      exact ⟨rfl, evicted⟩

omit [DecidableEq κ] in
theorem size_clear (c : Cache κ α) : c.clear.size = 0 := by
  simp [size, clear, List.countP_filter]

omit [DecidableEq κ] in
theorem Balanced.clear (balanced : c.Balanced requests cleared) :
    c.clear.Balanced requests (cleared + (c.slots.length - c.clear.slots.length)) := by
  obtain ⟨asked, builds, programs⟩ := balanced
  have spared (key : κ) (flight : Nat) (_ : (key, .pending flight) ∈ c.slots) :
      (!isReady (.pending flight : Slot κ α)) = true := rfl
  have sizes : c.clear.size + (c.slots.length - c.clear.slots.length) = c.size := size_filter _ spared
  have pending : c.clear.building = c.building := building_filter _ spared
  refine ⟨asked, ?_, ?_⟩
  · rw [pending]
    exact builds
  · change c.stats.compiles = c.clear.size + c.stats.evictions + c.stats.invalidations + _
    omega

omit [DecidableEq κ] in
theorem Queued.clear (queued : c.Queued since) : c.clear.Queued since := by
  refine ⟨fun capacity bounded => ⟨List.nodup_nil, fun key => ?_⟩, .nil, fun capacity bounded => ?_, fun none => ?_⟩
  · simp [Cache.clear, Ready, isReady]
  · rw [size_clear]
    exact ⟨(queued.room capacity bounded).1, Nat.zero_le _⟩
  · exact ⟨rfl, (queued.unbounded none).2⟩

end

end GridKernel.Cache
