import GridKernel.Proofs.Launch.Execution
import Mathlib.Data.Set.Function

namespace GridKernel

namespace Grid

def Holds (grid : Grid) (c : Coords) : Prop := c.x < grid.sizes.x ∧ c.y < grid.sizes.y ∧ c.z < grid.sizes.z

instance (grid : Grid) (c : Coords) : Decidable (grid.Holds c) := inferInstanceAs (Decidable (_ ∧ _ ∧ _))

def position (grid : Grid) (c : Coords) : Nat := (c.z * grid.sizes.y + c.y) * grid.sizes.x + c.x

def visits (grid : Grid) : List Coords :=
  (List.range grid.total).map fun id => (Context.ofLinear id grid.sizes).thread

variable (grid : Grid)

-- Axes that are not used have size one, so they count neither as rows nor as layers.
theorem total_sizes : grid.total = grid.sizes.x * grid.sizes.y * grid.sizes.z := by
  obtain ⟨axes, ranked, positive, bounded⟩ := grid
  simp only [total, sizes, axisProduct]
  rcases axes with _ | ⟨x, _ | ⟨y, _ | ⟨z, _ | ⟨w, more⟩⟩⟩⟩
  · simp at ranked
  · simp
  · simp
  · simp
  · simp only [List.length_cons] at ranked
    omega

theorem sizes_pos : 0 < grid.sizes.x ∧ 0 < grid.sizes.y ∧ 0 < grid.sizes.z := by
  have some := grid.total_pos
  simp only [total_sizes] at some
  refine ⟨?_, ?_, ?_⟩
  · exact Nat.pos_of_mul_pos_right (Nat.pos_of_mul_pos_right some)
  · exact Nat.pos_of_mul_pos_left (Nat.pos_of_mul_pos_right some)
  · exact Nat.pos_of_mul_pos_left some

-- Every quotient and remainder of an element's number is a 32-bit number already.
theorem plane_le : grid.sizes.x * grid.sizes.y ≤ grid.total := by
  rw [total_sizes]
  exact Nat.le_mul_of_pos_right _ grid.sizes_pos.2.2

theorem size_le (axis : Axis) : grid.sizes.get axis ≤ grid.total := by
  obtain ⟨wide, high, deep⟩ := grid.sizes_pos
  have plane := grid.plane_le
  cases axis with
  | x => exact le_trans (Nat.le_mul_of_pos_right _ high) plane
  | y => exact le_trans (Nat.le_mul_of_pos_left _ wide) plane
  | z =>
    rw [total_sizes]
    exact Nat.le_mul_of_pos_left _ (Nat.mul_pos wide high)

theorem thread_eq {id : Nat} (inside : id < grid.total) :
    Context.ofLinear id grid.sizes =
      ⟨⟨id % grid.sizes.x, id / grid.sizes.x % grid.sizes.y, id / (grid.sizes.x * grid.sizes.y)⟩, grid.sizes⟩ := by
  obtain ⟨wide, high, _⟩ := grid.sizes_pos
  have small : id < coordinateRange := Nat.lt_trans inside grid.bounded
  have one : id % grid.sizes.x < coordinateRange := Nat.lt_of_le_of_lt (Nat.mod_le _ _) small
  have two : id / grid.sizes.x % grid.sizes.y < coordinateRange :=
    Nat.lt_of_le_of_lt (Nat.le_trans (Nat.mod_le _ _) (Nat.div_le_self _ _)) small
  have three : id / (grid.sizes.x * grid.sizes.y) < coordinateRange := Nat.lt_of_le_of_lt (Nat.div_le_self _ _) small
  simp only [Context.ofLinear, Nat.max_eq_left wide, Nat.max_eq_left high, Nat.mod_eq_of_lt one, Nat.mod_eq_of_lt two,
    Nat.mod_eq_of_lt three]

theorem holds_thread {id : Nat} (inside : id < grid.total) : grid.Holds (Context.ofLinear id grid.sizes).thread := by
  obtain ⟨wide, high, _⟩ := grid.sizes_pos
  simp only [grid.thread_eq inside]
  refine ⟨Nat.mod_lt _ wide, Nat.mod_lt _ high, ?_⟩
  apply Nat.div_lt_of_lt_mul
  simpa only [total_sizes] using inside

theorem position_thread {id : Nat} (inside : id < grid.total) :
    grid.position (Context.ofLinear id grid.sizes).thread = id := by
  simp only [grid.thread_eq inside, position]
  calc (id / (grid.sizes.x * grid.sizes.y) * grid.sizes.y + id / grid.sizes.x % grid.sizes.y) * grid.sizes.x +
        id % grid.sizes.x
      = id / grid.sizes.x * grid.sizes.x + id % grid.sizes.x := by
        rw [← Nat.div_div_eq_div_mul, Nat.div_add_mod']
    _ = id := Nat.div_add_mod' id grid.sizes.x

theorem position_lt {c : Coords} (holds : grid.Holds c) : grid.position c < grid.total := by
  obtain ⟨column, row, layer⟩ := holds
  have rows : c.z * grid.sizes.y + c.y < grid.sizes.z * grid.sizes.y := by
    calc c.z * grid.sizes.y + c.y < (c.z + 1) * grid.sizes.y := by
          rw [Nat.succ_mul]
          omega
      _ ≤ grid.sizes.z * grid.sizes.y := Nat.mul_le_mul_right _ layer
  calc grid.position c < (c.z * grid.sizes.y + c.y + 1) * grid.sizes.x := by
        rw [Nat.succ_mul, position]
        omega
    _ ≤ grid.sizes.z * grid.sizes.y * grid.sizes.x := Nat.mul_le_mul_right _ rows
    _ = grid.total := by
        rw [total_sizes, Nat.mul_comm, Nat.mul_comm grid.sizes.z, Nat.mul_assoc]

theorem thread_position {c : Coords} (holds : grid.Holds c) :
    Context.ofLinear (grid.position c) grid.sizes = ⟨c, grid.sizes⟩ := by
  obtain ⟨wide, high, _⟩ := grid.sizes_pos
  have inside := grid.position_lt holds
  obtain ⟨column, row, _⟩ := holds
  have rows : grid.position c / grid.sizes.x = c.z * grid.sizes.y + c.y := by
    rw [position, Nat.mul_comm, Nat.mul_add_div wide, Nat.div_eq_of_lt column, Nat.add_zero]
  have first : grid.position c % grid.sizes.x = c.x := by
    rw [position, Nat.mul_comm, Nat.mul_add_mod, Nat.mod_eq_of_lt column]
  have second : (c.z * grid.sizes.y + c.y) % grid.sizes.y = c.y := by
    rw [Nat.mul_comm, Nat.mul_add_mod, Nat.mod_eq_of_lt row]
  have third : (c.z * grid.sizes.y + c.y) / grid.sizes.y = c.z := by
    rw [Nat.mul_comm, Nat.mul_add_div high, Nat.div_eq_of_lt row, Nat.add_zero]
  simp only [grid.thread_eq inside, ← Nat.div_div_eq_div_mul, rows, first, second, third]

theorem mem_visits (c : Coords) : c ∈ grid.visits ↔ grid.Holds c := by
  simp only [visits, List.mem_map, List.mem_range]
  constructor
  · rintro ⟨id, inside, rfl⟩
    exact grid.holds_thread inside
  · intro holds
    exact ⟨grid.position c, grid.position_lt holds, by rw [grid.thread_position holds]⟩

theorem visits_ordered : grid.visits.Pairwise fun a b => grid.position a < grid.position b := by
  simp only [visits, List.pairwise_map]
  apply List.Pairwise.imp_of_mem _ List.pairwise_lt_range
  intro a b first second before
  rw [grid.position_thread (List.mem_range.mp first), grid.position_thread (List.mem_range.mp second)]
  exact before

end Grid

theorem collect_eq {ε α : Type} (element : Nat → Except ε α) (count id : Nat) (done : Array α) :
    collect element count id done = ((List.range' id count).mapM element).map fun words => done ++ words.toArray := by
  induction count generalizing id done with
  | zero => simp [collect, Except.map, pure, Except.pure]
  | succ count ih =>
    rw [collect, List.range'_succ, List.mapM_cons]
    cases element id with
    | error e => rfl
    | ok v =>
      simp only [ih]
      cases (List.range' (id + 1) count).mapM element with
      | error e => rfl
      | ok words => simp [Except.map, bind, Except.bind, pure, Except.pure]

namespace Host

def wordAt (functions : Snapshot) (body : Body) (grid : Grid) (values : List Value) (c : Coords) : Except EvalError Single :=
  (evaluate functions.get? ⟨c, grid.sizes⟩ body values).map Single.ofFloat

variable (functions : Snapshot) (body : Body) (types : List ValueType) (grid : Grid) (args : List Arg)

theorem words_eq {values : List Value} (bound : Value.bindAll types args = .ok values) :
    words functions body types grid args =
      (grid.visits.mapM (wordAt functions body grid values)).map List.toArray := by
  have each : elementWord functions body grid.sizes values =
      wordAt functions body grid values ∘ fun id => (Context.ofLinear id grid.sizes).thread := by
    funext id
    simp only [elementWord, wordAt, Function.comp_apply]
    have same : Context.ofLinear id grid.sizes = ⟨(Context.ofLinear id grid.sizes).thread, grid.sizes⟩ := rfl
    rw [same]
    cases evaluate functions.get? ⟨(Context.ofLinear id grid.sizes).thread, grid.sizes⟩ body values <;> rfl
  unfold words
  rw [bound]
  change collect _ grid.total 0 #[] = _
  rw [collect_eq, Grid.visits, List.mapM_map, ← List.range_eq_range', each]
  simp

theorem wordAt_ok_iff {values : List Value} {c : Coords} :
    (∃ w, wordAt functions body grid values c = .ok w) ↔
      ∃ v, evaluate functions.get? ⟨c, grid.sizes⟩ body values = .ok v := by
  unfold wordAt
  cases evaluate functions.get? ⟨c, grid.sizes⟩ body values with
  | ok v => exact ⟨fun _ => ⟨v, rfl⟩, fun _ => ⟨_, rfl⟩⟩
  | error e => simp [Except.map]

theorem word_at_position {values : List Value} {words : List Single}
    (ran : grid.visits.mapM (wordAt functions body grid values) = .ok words) {c : Coords} (holds : grid.Holds c) :
    ∃ w, words[grid.position c]? = some w ∧ wordAt functions body grid values c = .ok w := by
  have each := mapM_eq_ok ran
  have inside : grid.position c < grid.visits.length := by
    simpa only [Grid.visits, List.length_map, List.length_range] using grid.position_lt holds
  have room : grid.position c < words.length := each.length_eq ▸ inside
  have here : grid.visits.get ⟨grid.position c, inside⟩ = c := by
    simp [Grid.visits, grid.thread_position holds]
  have found := each.get inside room
  rw [here] at found
  exact ⟨words.get ⟨grid.position c, room⟩, by simp, found⟩

-- What comes before a coordinate in the order of the visits has a smaller position, and the other way round.
theorem before_iff {before after : List Coords} {c : Coords} (split : grid.visits = before ++ c :: after) (b : Coords)
    (holds : grid.Holds b) : b ∈ before ↔ grid.position b < grid.position c := by
  have ordered := grid.visits_ordered
  rw [split] at ordered
  obtain ⟨_, rest, across⟩ := List.pairwise_append.mp ordered
  constructor
  · intro member
    exact across b member c List.mem_cons_self
  · intro smaller
    have visited := (grid.mem_visits b).mpr holds
    rw [split, List.mem_append, List.mem_cons] at visited
    rcases visited with member | rfl | later
    · exact member
    · exact absurd smaller (Nat.lt_irrefl _)
    · exact absurd ((List.pairwise_cons.mp rest).1 b later) (Nat.lt_asymm smaller)

theorem visits_error_iff {values : List Value} {cause : EvalError} :
    grid.visits.mapM (wordAt functions body grid values) = .error cause ↔
      ∃ c, grid.Holds c ∧ evaluate functions.get? ⟨c, grid.sizes⟩ body values = .error cause ∧
        ∀ b, grid.Holds b → grid.position b < grid.position c →
          ∃ v, evaluate functions.get? ⟨b, grid.sizes⟩ body values = .ok v := by
  rw [mapM_error_iff]
  constructor
  · rintro ⟨before, c, after, split, failed, fine⟩
    have holds : grid.Holds c := (grid.mem_visits c).mp (split ▸ by simp)
    refine ⟨c, holds, map_eq_error failed, fun b inside smaller => ?_⟩
    exact (wordAt_ok_iff functions body grid).mp (fine b ((before_iff grid split b inside).mpr smaller))
  · rintro ⟨c, holds, failed, fine⟩
    obtain ⟨before, after, split⟩ := List.append_of_mem ((grid.mem_visits c).mpr holds)
    refine ⟨before, c, after, split, by rw [wordAt, failed]; rfl, fun b member => ?_⟩
    have inside : grid.Holds b := (grid.mem_visits b).mp (split ▸ List.mem_append_left _ member)
    exact (wordAt_ok_iff functions body grid).mpr (fine b inside ((before_iff grid split b inside).mp member))

end Host

theorem Grid.ofAxes_axes {axes : List Nat} {grid : Grid} (accepted : Grid.ofAxes axes = .ok grid) : grid.axes = axes := by
  unfold Grid.ofAxes at accepted
  split at accepted
  · split at accepted
    · split at accepted
      · cases accepted
        rfl
      · cases accepted
    · cases accepted
  · cases accepted

theorem host_runs_map_the_grid (axes : List Nat) (grid : Grid) (accepted : Grid.ofAxes axes = .ok grid)
    (functions : Snapshot) (body : Body) (types : List ValueType) (args : List Arg) (values : List Value)
    (bound : Value.bindAll types args = .ok values) :
    -- The numbers of the elements and the coordinates are paired, and no coordinate is cut to 32 bits.
    (Set.BijOn (fun id => (Context.ofLinear id grid.sizes).thread) {id | id < grid.total} {c | grid.Holds c} ∧
      (∀ id < grid.total, Context.ofLinear id grid.sizes =
        ⟨⟨id % grid.sizes.x, id / grid.sizes.x % grid.sizes.y, id / (grid.sizes.x * grid.sizes.y)⟩, grid.sizes⟩) ∧
      ∀ c, grid.Holds c → grid.position c < grid.total ∧ Context.ofLinear (grid.position c) grid.sizes = ⟨c, grid.sizes⟩) ∧
    -- A run evaluates once at every coordinate, in the order of their positions.
    ((∀ c, c ∈ grid.visits ↔ grid.Holds c) ∧ grid.visits.Nodup ∧
      grid.visits.Pairwise (fun a b => grid.position a < grid.position b) ∧
      Host.words functions body types grid args =
        (grid.visits.mapM fun c => (evaluate functions.get? ⟨c, grid.sizes⟩ body values).map Single.ofFloat).map List.toArray) ∧
    ((∀ c, grid.Holds c → ∃ v, evaluate functions.get? ⟨c, grid.sizes⟩ body values = .ok v) →
      ∃ words, Host.run functions body types grid args = .ok ⟨axes.reverse, .f32 words⟩ ∧ words.size = grid.total ∧
        ∀ c v, grid.Holds c → evaluate functions.get? ⟨c, grid.sizes⟩ body values = .ok v →
          words[grid.position c]? = some (Single.ofFloat v)) ∧
    -- The only failure is that of the first coordinate that has one.
    ∀ e, Host.run functions body types grid args = .error e ↔
      ∃ c cause, grid.Holds c ∧ evaluate functions.get? ⟨c, grid.sizes⟩ body values = .error cause ∧
        e = .ofEval cause ∧ ∀ b, grid.Holds b → grid.position b < grid.position c →
          ∃ v, evaluate functions.get? ⟨b, grid.sizes⟩ body values = .ok v := by
  have shape : grid.outputShape = axes.reverse := congrArg List.reverse (Grid.ofAxes_axes accepted)
  have words := Host.words_eq functions body types grid args bound
  refine ⟨⟨⟨?_, ?_, ?_⟩, fun id => grid.thread_eq, fun c holds => ⟨grid.position_lt holds, grid.thread_position holds⟩⟩,
    ⟨grid.mem_visits, ?_, grid.visits_ordered, words⟩, ?_, ?_⟩
  · intro id inside
    exact grid.holds_thread inside
  · intro a first b second same
    have positions := congrArg grid.position same
    rwa [grid.position_thread first, grid.position_thread second] at positions
  · intro c holds
    exact ⟨grid.position c, grid.position_lt holds, congrArg Context.thread (grid.thread_position holds)⟩
  · apply List.Pairwise.imp _ grid.visits_ordered
    rintro a b smaller rfl
    exact Nat.lt_irrefl _ smaller
  · intro fine
    have all : ∀ c ∈ grid.visits, ∃ w, Host.wordAt functions body grid values c = .ok w := fun c visited =>
      (Host.wordAt_ok_iff functions body grid).mpr (fine c ((grid.mem_visits c).mp visited))
    obtain ⟨list, ran⟩ := mapM_ok_iff.mpr all
    rw [ran] at words
    refine ⟨list.toArray, ?_, Host.words_size functions body types grid args _ words, ?_⟩
    · rw [Host.run_eq, words, shape]
      rfl
    · intro c v holds value
      obtain ⟨w, found, computed⟩ := Host.word_at_position functions body grid ran holds
      rw [Host.wordAt, value] at computed
      cases computed
      simpa using found
  · intro e
    rw [Host.run_eq, words]
    constructor
    · intro failed
      obtain ⟨cause, visited, rfl⟩ := mapError_eq_error (map_eq_error failed)
      obtain ⟨c, holds, reason, fine⟩ := (Host.visits_error_iff functions body grid).mp (map_eq_error visited)
      exact ⟨c, cause, holds, reason, rfl, fine⟩
    · rintro ⟨c, cause, holds, reason, rfl, fine⟩
      rw [(Host.visits_error_iff functions body grid).mpr ⟨c, holds, reason, fine⟩]
      rfl

-- A kernel over three axes that is lost wherever `y` is not zero.
def layers : Grid := ⟨[2, 3, 2], by decide, by decide, by decide⟩

def lostBody : Body := ⟨[], 0, [.ret (.select (.thread .y) (.call "lost" []) (.thread .x))]⟩

def rowBody : Body := ⟨[], 0, [.ret (.thread .y)]⟩

theorem layers_mapped :
    Host.run {} lostBody [] layers [] = .error (.evaluation (.unknownFunction "lost")) ∧
      ∃ words, Host.run {} rowBody [] layers [] = .ok ⟨[2, 3, 2], .f32 words⟩ ∧
        words[11]? = some (Single.ofFloat (ofCoordinate 2)) := by
  have accepted : Grid.ofAxes [2, 3, 2] = .ok layers := rfl
  obtain ⟨_, _, _, failures⟩ := host_runs_map_the_grid [2, 3, 2] layers accepted {} lostBody [] [] [] rfl
  obtain ⟨_, _, success, _⟩ := host_runs_map_the_grid [2, 3, 2] layers accepted {} rowBody [] [] [] rfl
  have rows (c : Coords) : evaluate (Snapshot.get? {}) ⟨c, layers.sizes⟩ rowBody [] = .ok (ofCoordinate c.y) := rfl
  refine ⟨(failures _).mpr ⟨⟨0, 1, 0⟩, .unknownFunction "lost", by decide, rfl, rfl, ?_⟩, ?_⟩
  · rintro ⟨x, y, z⟩ _ earlier
    have none : y = 0 := by
      change (z * 3 + y) * 2 + x < 2 at earlier
      omega
    subst none
    have still : isTrue (ofCoordinate 0) = false := by decide +kernel
    exact ⟨ofCoordinate x, by simp [evaluate, Env.runFrom, Env.execBlock, Env.exec, Env.eval, lostBody, Coords.get, still, bind,
      Except.bind]⟩
  · obtain ⟨words, ran, _, each⟩ := success fun c _ => ⟨_, rows c⟩
    exact ⟨words, ran, each ⟨1, 2, 1⟩ _ (by decide) (rows _)⟩

end GridKernel
