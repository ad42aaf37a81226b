import GridKernel.Cache
import Mathlib.Data.List.Nodup

namespace GridKernel.Cache

variable {κ α : Type} [DecidableEq κ]

@[simp]
theorem mem_without (key : κ) (slots : List (κ × Slot κ α)) (entry : κ × Slot κ α) :
    entry ∈ without key slots ↔ entry ∈ slots ∧ entry.1 ≠ key := by
  simp [without]

@[simp]
theorem mem_withSlot (key : κ) (slot : Slot κ α) (slots : List (κ × Slot κ α)) (entry : κ × Slot κ α) :
    entry ∈ withSlot key slot slots ↔ entry = (key, slot) ∨ entry ∈ slots ∧ entry.1 ≠ key := by
  simp [withSlot]

theorem slot?_mem (c : Cache κ α) (key : κ) (slot : Slot κ α) (found : c.slot? key = some slot) :
    (key, slot) ∈ c.slots := by
  obtain ⟨entry, at_key, rfl⟩ := Option.map_eq_some_iff.mp found
  have same : entry.1 = key := by simpa using List.find?_some at_key
  exact same ▸ List.mem_of_find?_eq_some at_key

theorem slot?_eq_none (c : Cache κ α) (key : κ) :
    c.slot? key = none ↔ ∀ entry ∈ c.slots, entry.1 ≠ key := by
  simp [slot?]

theorem lookup_parts (c : Cache κ α) (key : κ) :
    (∃ program, (key, .ready program) ∈ c.slots ∧ (c.lookup key).2 = .hit program ∧
      (c.lookup key).1 = { c with stats.hits := c.stats.hits + 1 }) ∨
    (∃ flight, (key, .pending flight) ∈ c.slots ∧ (c.lookup key).2 = .joined flight ∧
      (c.lookup key).1 = { c with stats.waits := c.stats.waits + 1 }) ∨
    c.slot? key = none ∧ (c.lookup key).2 = .leads c.flights ∧
      (c.lookup key).1 = { c with
        slots := withSlot key (.pending c.flights) c.slots
        stats.misses := c.stats.misses + 1
        flights := c.flights + 1 } := by
  unfold lookup
  split
  · rename_i program found
    exact .inl ⟨program, slot?_mem c key _ found, rfl, rfl⟩
  · rename_i flight found
    exact .inr (.inl ⟨flight, slot?_mem c key _ found, rfl, rfl⟩)
  · rename_i absent
    exact .inr (.inr ⟨absent, rfl, rfl⟩)

theorem lookup_hit {c : Cache κ α} {key : κ} {program : CachedProgram κ α} (found : (c.lookup key).2 = .hit program) :
    (key, .ready program) ∈ c.slots := by
  rcases c.lookup_parts key with ⟨_, ready, result, _⟩ | ⟨_, _, result, _⟩ | ⟨_, result, _⟩ <;> rw [result] at found
  · cases found
    exact ready
  · cases found
  · cases found

theorem lookup_joined {c : Cache κ α} {key : κ} {flight : Nat} (found : (c.lookup key).2 = .joined flight) :
    (key, .pending flight) ∈ c.slots := by
  rcases c.lookup_parts key with ⟨_, _, result, _⟩ | ⟨_, waits, result, _⟩ | ⟨_, result, _⟩ <;> rw [result] at found
  · cases found
  · cases found
    exact waits
  · cases found

theorem lookup_leads {c : Cache κ α} {key : κ} {flight : Nat} (found : (c.lookup key).2 = .leads flight) :
    c.slot? key = none ∧ flight = c.flights ∧ (c.lookup key).1 = { c with
      slots := withSlot key (.pending c.flights) c.slots
      stats.misses := c.stats.misses + 1
      flights := c.flights + 1 } := by
  rcases c.lookup_parts key with ⟨_, _, result, _⟩ | ⟨_, _, result, _⟩ | ⟨absent, result, after⟩ <;> rw [result] at found
  · cases found
  · cases found
  · cases found
    exact ⟨absent, rfl, after⟩

theorem lookup_absent {c : Cache κ α} {key : κ} (absent : c.slot? key = none) :
    (c.lookup key).2 = .leads c.flights := by
  unfold lookup
  rw [absent]

omit [DecidableEq κ] in
theorem received?_mem (c : Cache κ α) (flight : Nat) (outcome : Outcome κ α) (got : c.received? flight = some outcome) :
    (flight, outcome) ∈ c.published := by
  obtain ⟨entry, at_flight, rfl⟩ := Option.map_eq_some_iff.mp got
  have same : entry.1 = flight := by simpa using List.find?_some at_flight
  exact same ▸ List.mem_of_find?_eq_some at_flight

omit [DecidableEq κ] in
theorem received?_of_mem (c : Cache κ α) (flight : Nat) (outcome : Outcome κ α)
    (member : (flight, outcome) ∈ c.published) : ∃ first, c.received? flight = some first := by
  cases got : c.received? flight with
  | some first => exact ⟨first, rfl⟩
  | none =>
    have absent := List.find?_eq_none.mp (Option.map_eq_none_iff.mp got) _ member
    simp at absent

theorem mem_of_mem_evict (capacity : Nat) (order : List κ) (c : Cache κ α) (entry : κ × Slot κ α)
    (member : entry ∈ (evict capacity order c).slots) : entry ∈ c.slots := by
  induction order generalizing c with
  | nil => exact member
  | cons oldest rest ih =>
    unfold evict at member
    split at member
    · exact member
    · split at member
      · exact ((mem_without _ _ _).mp (ih _ member)).1
      · exact ih _ member

theorem mem_of_mem_settle (c : Cache κ α) (key : κ) (outcome : Outcome κ α) (entry : κ × Slot κ α)
    (member : entry ∈ (c.settle key outcome).slots) :
    (∃ program, outcome = .ok program ∧ entry = (key, .ready program)) ∨ entry ∈ c.slots ∧ entry.1 ≠ key := by
  unfold settle at member
  split at member
  · rename_i program
    have stored : entry ∈ withSlot key (.ready program) c.slots := by
      dsimp only at member
      split at member
      · exact member
      · exact mem_of_mem_evict _ _ _ _ member
    rcases (mem_withSlot _ _ _ _).mp stored with new | old
    · exact .inl ⟨program, rfl, new⟩
    · exact .inr old
  · exact .inr ((mem_without _ _ _).mp member)

theorem mem_of_mem_invalidate (c : Cache κ α) (name : String) (entry : κ × Slot κ α)
    (member : entry ∈ (c.invalidate name).1.slots) : entry ∈ c.slots := by
  unfold invalidate at member
  dsimp only at member
  split at member
  · exact member
  · exact (List.mem_filter.mp member).1

theorem unused_of_mem_invalidate (c : Cache κ α) (name : String) (entry : κ × Slot κ α)
    (member : entry ∈ (c.invalidate name).1.slots) : uses name entry.2 = false := by
  unfold invalidate at member
  dsimp only at member
  split at member
  · rename_i none
    have all : c.slots.filter (fun s => !uses name s.2) = c.slots :=
      List.filter_sublist.eq_of_length_le (Nat.sub_eq_zero_iff_le.mp none)
    rw [← all] at member
    simpa using (List.mem_filter.mp member).2
  · simpa using (List.mem_filter.mp member).2

def Unique (c : Cache κ α) : Prop := (c.slots.map Prod.fst).Nodup

omit [DecidableEq κ] in
theorem unique_sublist {c d : Cache κ α} (unique : c.Unique) (within : d.slots.Sublist c.slots) : d.Unique :=
  (within.map Prod.fst).nodup unique

omit [DecidableEq κ] in
theorem eq_of_mem {c : Cache κ α} (unique : c.Unique) {key : κ} {first second : Slot κ α}
    (one : (key, first) ∈ c.slots) (two : (key, second) ∈ c.slots) : first = second := by
  have same := List.inj_on_of_nodup_map unique one two rfl
  cases same
  rfl

theorem slot?_iff {c : Cache κ α} (unique : c.Unique) (key : κ) (slot : Slot κ α) :
    c.slot? key = some slot ↔ (key, slot) ∈ c.slots := by
  refine ⟨slot?_mem c key slot, fun member => ?_⟩
  cases found : c.slot? key with
  | none => exact absurd rfl ((slot?_eq_none c key).mp found _ member)
  | some other => rw [eq_of_mem unique (slot?_mem c key other found) member]

theorem unique_withSlot {c : Cache κ α} (unique : c.Unique) (key : κ) (slot : Slot κ α) :
    ((withSlot key slot c.slots).map Prod.fst).Nodup := by
  rw [withSlot, List.map_cons, List.nodup_cons]
  refine ⟨?_, ((List.filter_sublist).map Prod.fst).nodup unique⟩
  intro member
  obtain ⟨entry, inside, same⟩ := List.mem_map.mp member
  exact ((mem_without _ _ _).mp inside).2 same

-- Nothing happened to any flight: the slots that wait for one are the same, no flight started
-- and none was published.
structure Keeps (c d : Cache κ α) : Prop where
  unique : d.Unique
  pending : ∀ key flight, (key, .pending flight) ∈ d.slots ↔ (key, .pending flight) ∈ c.slots
  flights : d.flights = c.flights
  published : d.published = c.published

omit [DecidableEq κ] in
theorem Keeps.refl {c : Cache κ α} (unique : c.Unique) : c.Keeps c := ⟨unique, fun _ _ => Iff.rfl, rfl, rfl⟩

theorem lookup_keeps {c : Cache κ α} (unique : c.Unique) {key : κ} (follows : ∀ flight, (c.lookup key).2 ≠ .leads flight) :
    c.Keeps (c.lookup key).1 := by
  rcases c.lookup_parts key with ⟨_, _, _, after⟩ | ⟨_, _, _, after⟩ | ⟨_, result, _⟩
  · rw [after]
    exact ⟨unique, fun _ _ => Iff.rfl, rfl, rfl⟩
  · rw [after]
    exact ⟨unique, fun _ _ => Iff.rfl, rfl, rfl⟩
  · exact absurd result (follows _)

-- Only a finished program is evicted, so a key that waits for a flight stays.
theorem evict_keeps (capacity : Nat) (order : List κ) (c : Cache κ α) (unique : c.Unique) :
    c.Keeps (evict capacity order c) := by
  induction order generalizing c with
  | nil => exact ⟨unique, fun _ _ => Iff.rfl, rfl, rfl⟩
  | cons oldest rest ih =>
    unfold evict
    split
    · exact ⟨unique, fun _ _ => Iff.rfl, rfl, rfl⟩
    · split
      · rename_i program found
        have ready : (oldest, .ready program) ∈ c.slots := by
          unfold get? at found
          split at found
          · rename_i kept slot
            cases found
            exact slot?_mem c oldest _ slot
          · cases found
        have after := ih { c with slots := without oldest c.slots, stats.evictions := c.stats.evictions + 1 }
          (unique_sublist unique List.filter_sublist)
        refine ⟨after.unique, fun key flight => ?_, after.flights, after.published⟩
        rw [after.pending, mem_without]
        refine ⟨And.left, fun member => ⟨member, ?_⟩⟩
        rintro rfl
        cases eq_of_mem unique member ready
      · exact ih c unique

theorem settle_pending (c : Cache κ α) (unique : c.Unique) (key : κ) (outcome : Outcome κ α) :
    (c.settle key outcome).Unique ∧ (c.settle key outcome).flights = c.flights ∧
      (c.settle key outcome).published = c.published ∧
      ∀ other flight, (other, .pending flight) ∈ (c.settle key outcome).slots ↔
        (other, .pending flight) ∈ c.slots ∧ other ≠ key := by
  cases outcome with
  | error e =>
    exact ⟨unique_sublist unique List.filter_sublist, rfl, rfl, fun other flight => mem_without _ _ _⟩
  | ok program =>
    have stored : Unique { c with
        slots := withSlot key (.ready program) c.slots, stats.compiles := c.stats.compiles + 1 } :=
      unique_withSlot unique key _
    have member (other : κ) (flight : Nat) : (other, .pending flight) ∈ withSlot key (.ready program) c.slots ↔
        (other, .pending flight) ∈ c.slots ∧ other ≠ key := by
      simp
    unfold settle
    dsimp only
    split
    · exact ⟨stored, rfl, rfl, member⟩
    · rename_i capacity _
      have kept := evict_keeps capacity (c.order ++ [key]) _ stored
      exact ⟨kept.unique, kept.flights, kept.published, fun other flight => (kept.pending other flight).trans (member other flight)⟩

theorem settle_error (c : Cache κ α) (key : κ) (e : KernelError) : (c.settle key (.error e)).slot? key = none := by
  rw [slot?_eq_none]
  intro entry member
  exact ((mem_without _ _ _).mp member).2

theorem invalidate_keeps (c : Cache κ α) (unique : c.Unique) (name : String) : c.Keeps (c.invalidate name).1 := by
  unfold invalidate
  dsimp only
  split
  · exact .refl unique
  · exact ⟨unique_sublist unique List.filter_sublist, fun key flight => by simp [uses], rfl, rfl⟩

omit [DecidableEq κ] in
theorem clear_keeps (c : Cache κ α) (unique : c.Unique) : c.Keeps c.clear :=
  ⟨unique_sublist unique List.filter_sublist, fun key flight => by simp [clear, isReady], rfl, rfl⟩

end GridKernel.Cache
