import GridKernel.Proofs.Buffer.Settled
import GridKernel.Proofs.Eval.Views
import GridKernel.Proofs.Launch.RowMajor
import GridKernel.Proofs.Session.Effects
import GridKernel.Proofs.Session.Fallback
import Mathlib.Algebra.BigOperators.Group.List.Lemmas

namespace GridKernel

-- An array and a grid of one shape have the same sizes along the same axes.
theorem View.sizes_ofTensor (t : Tensor) (grid : Grid) (shaped : t.shape = grid.outputShape) :
    (View.ofTensor t).sizes = grid.sizes := by
  obtain ⟨axes, ranked, positive, bounded⟩ := grid
  simp only [Grid.outputShape] at shaped
  simp only [View.ofTensor, shaped, Grid.sizes]
  rcases axes with _ | ⟨x, _ | ⟨y, _ | ⟨z, _ | ⟨w, more⟩⟩⟩⟩
  · simp at ranked
  · rfl
  · rfl
  · rfl
  · simp only [List.length_cons] at ranked
    omega

theorem Grid.shaped (grid : Grid) (t : Tensor) (shaped : t.shape = grid.outputShape) (counted : t.data.size = grid.total) :
    t.Shaped := by
  have ranked : 1 ≤ t.shape.length ∧ t.shape.length ≤ 3 := by
    rw [shaped, outputShape, List.length_reverse]
    exact grid.ranked
  refine Tensor.ofShape_counted ranked (shaped ▸ grid.countable) ?_
  rw [shaped, grid.axisProduct_outputShape, counted]

theorem View.elementAt_thread (t : Tensor) (grid : Grid) (shaped : t.shape = grid.outputShape)
    (counted : t.data.size = grid.total) {id : Nat} (inside : id < grid.total) :
    (View.ofTensor t).elementAt (Context.ofLinear id grid.sizes).thread.z (Context.ofLinear id grid.sizes).thread.y
      (Context.ofLinear id grid.sizes).thread.x = .ok ((t.data.get? id).getD 0.0) := by
  have sizes := View.sizes_ofTensor t grid shaped
  have position : (View.ofTensor t).position (Context.ofLinear id grid.sizes).thread = id := by
    rw [View.position, sizes]
    exact grid.position_thread inside
  obtain ⟨x, y, z⟩ := grid.holds_thread inside
  have within : (Context.ofLinear id grid.sizes).thread.Inside (View.ofTensor t).sizes := by
    rw [sizes]
    exact ⟨z, y, x⟩
  have addressed := (grid.shaped t shaped counted).address_position within
  rw [position] at addressed
  exact View.elementAt_eq addressed

def Coords.indices (c : Coords) (rank : Nat) : List Float :=
  [ofCoordinate c.z, ofCoordinate c.y, ofCoordinate c.x].drop (3 - rank)

theorem Env.runFrom_ret (env : Env) (e : Expr) (locals : Locals) : env.runFrom [.ret e] locals = env.eval locals e := by
  unfold runFrom execBlock exec
  cases env.eval locals e <;> rfl

theorem evaluate_copy (lookup : String → Option Definition) (context : Context) {rank : Nat} (view : View)
    (ranked : 1 ≤ rank ∧ rank ≤ 3) :
    evaluate lookup context (copyBody rank) [.array view] = view.load (context.thread.indices rank) := by
  rw [evaluate, copyBody, Env.runFrom_ret]
  obtain rfl | rfl | rfl : rank = 1 ∨ rank = 2 ∨ rank = 3 := by omega
  · rfl
  · rfl
  · rfl

theorem View.load_indices (v : View) {c : Coords} (inside : c.x < v.sizes.x ∧ c.y < v.sizes.y ∧ c.z < v.sizes.z)
    (small : v.sizes.x < 2 ^ 53 ∧ v.sizes.y < 2 ^ 53 ∧ v.sizes.z < 2 ^ 53) {rank : Nat} (ranked : 1 ≤ rank ∧ rank ≤ 3)
    (flat : rank < 2 → v.sizes.y = 1) (single : rank < 3 → v.sizes.z = 1) :
    v.load (c.indices rank) = v.elementAt c.z c.y c.x := by
  have x := coordinate?_ofCoordinate small.1 inside.1
  have y := coordinate?_ofCoordinate small.2.1 inside.2.1
  have z := coordinate?_ofCoordinate small.2.2 inside.2.2
  obtain rfl | rfl | rfl : rank = 1 ∨ rank = 2 ∨ rank = 3 := by omega
  · have lone := flat (by decide)
    have only := single (by decide)
    have row : c.y = 0 := by omega
    have layer : c.z = 0 := by omega
    have form : c.indices 1 = [ofCoordinate c.x] := rfl
    simp only [form, load, x, row, layer]
  · have only := single (by decide)
    have layer : c.z = 0 := by omega
    have form : c.indices 2 = [ofCoordinate c.y, ofCoordinate c.x] := rfl
    simp only [form, load, x, y, layer]
  · have form : c.indices 3 = [ofCoordinate c.z, ofCoordinate c.y, ofCoordinate c.x] := rfl
    simp only [form, load, x, y, z]

theorem Grid.sizes_lt (grid : Grid) : grid.sizes.x < 2 ^ 53 ∧ grid.sizes.y < 2 ^ 53 ∧ grid.sizes.z < 2 ^ 53 := by
  have bounded : grid.total < 2 ^ 53 := lt_trans grid.bounded (by decide)
  exact ⟨lt_of_le_of_lt (grid.size_le .x) bounded, lt_of_le_of_lt (grid.size_le .y) bounded,
    lt_of_le_of_lt (grid.size_le .z) bounded⟩

theorem elementWord_copy (functions : Snapshot) (grid : Grid) (t : Tensor) (shaped : t.shape = grid.outputShape)
    (counted : t.data.size = grid.total) {id : Nat} (inside : id < grid.total) :
    elementWord functions (copyBody t.shape.length) grid.sizes [.array (.ofTensor t)] id =
      .ok (Single.ofFloat ((t.data.get? id).getD 0.0)) := by
  have sizes := View.sizes_ofTensor t grid shaped
  have rank : t.shape.length = grid.axes.length := by rw [shaped, Grid.outputShape, List.length_reverse]
  have ranked : 1 ≤ t.shape.length ∧ t.shape.length ≤ 3 := rank ▸ grid.ranked
  have flat : t.shape.length < 2 → (View.ofTensor t).sizes.y = 1 := fun low =>
    sizes ▸ List.getD_eq_default _ _ (by omega)
  have single : t.shape.length < 3 → (View.ofTensor t).sizes.z = 1 := fun low =>
    sizes ▸ List.getD_eq_default _ _ (by omega)
  have within : (Context.ofLinear id grid.sizes).thread.x < (View.ofTensor t).sizes.x ∧
      (Context.ofLinear id grid.sizes).thread.y < (View.ofTensor t).sizes.y ∧
      (Context.ofLinear id grid.sizes).thread.z < (View.ofTensor t).sizes.z := by
    rw [sizes]
    exact grid.holds_thread inside
  unfold elementWord
  rw [evaluate_copy _ _ _ ranked, View.load_indices _ within (sizes ▸ grid.sizes_lt) ranked flat single,
    View.elementAt_thread t grid shaped counted inside]
  rfl

theorem Elements.get?_eq_none {e : Elements} {i : Nat} (outside : e.size ≤ i) : e.get? i = none := by
  cases e <;> simp only [size] at outside <;> simp [get?, outside]

theorem Host.words_copy (functions : Snapshot) (grid : Grid) (t : Tensor) (shaped : t.shape = grid.outputShape)
    (counted : t.data.size = grid.total) :
    ∃ words, Host.words functions (copyBody t.shape.length) [.floatArray] grid [.array t] = .ok words ∧
      ∀ i : Nat, words[i]? = (t.data.get? i).map Single.ofFloat := by
  have bound : Value.bindAll [.floatArray] [.array t] = .ok [.array (.ofTensor t)] := rfl
  have each : ∀ id ∈ List.range' 0 grid.total, elementWord functions (copyBody t.shape.length) grid.sizes
      [.array (.ofTensor t)] id = .ok (Single.ofFloat ((t.data.get? id).getD 0.0)) := by
    intro id member
    exact elementWord_copy functions grid t shaped counted (by simpa using member)
  refine ⟨((List.range' 0 grid.total).map fun id => Single.ofFloat ((t.data.get? id).getD 0.0)).toArray, ?_, fun i => ?_⟩
  · unfold Host.words
    rw [bound]
    change collect _ grid.total 0 #[] = _
    rw [collect_eq, mapM_eq_map each]
    simp [Except.map]
  · by_cases inside : i < grid.total
    · obtain ⟨v, found⟩ := t.data.get?_inside (by rwa [counted])
      simp [inside, found]
    · rw [Elements.get?_eq_none (by omega)]
      simp [inside]

theorem Output.words_ofTensor (shape : List Nat) (words : Array Single) :
    (Output.ofTensor ⟨shape, .f32 words⟩).words = words := by
  unfold Output.ofTensor
  split
  · rename_i v one first
    have single : words.size = 1 := one
    have here : words[0]? = some v := first
    apply Array.ext_getElem?
    intro i
    cases i with
    | zero => rw [here]; rfl
    | succ i => simp [Output.words, single]
  · rfl

section Shapes

variable {shape : List Nat} (positive : 0 < axisProduct shape)

include positive

theorem axis_bounds {a : Nat} (member : a ∈ shape) : 0 < a ∧ a ≤ axisProduct shape := by
  have divides : a ∣ axisProduct shape := by
    rw [axisProduct, ← List.prod_eq_foldl]
    exact List.dvd_prod member
  exact ⟨Nat.pos_of_dvd_of_pos divides positive, Nat.le_of_dvd positive divides⟩

theorem Grid.ofAxes_reverse (ranked : 1 ≤ shape.length ∧ shape.length ≤ 3) (bounded : axisProduct shape < 0x100000000) :
    ∃ grid, Grid.ofAxes shape.reverse = .ok grid ∧ grid.outputShape = shape ∧ grid.total = axisProduct shape := by
  have product : axisProduct shape.reverse = axisProduct shape := by
    simp only [axisProduct, ← List.prod_eq_foldl, List.prod_reverse]
  unfold Grid.ofAxes
  rw [dif_pos (by rwa [List.length_reverse]), dif_pos (fun a member => (axis_bounds positive (List.mem_reverse.mp member)).1),
    dif_pos (by rwa [product])]
  exact ⟨_, rfl, by simp [Grid.outputShape], product⟩

end Shapes

def copyKernel (rank : Nat) (grid : Grid) (route : Route) : Kernel :=
  ⟨copyBody rank, [.floatArray], grid, .auto, route⟩

theorem Kernel.make_copy {shape : List Nat} {grid : Grid} (ranked : 1 ≤ shape.length ∧ shape.length ≤ 3)
    (accepted : Grid.ofAxes shape.reverse = .ok grid) :
    Kernel.make (copyBody shape.length) { dimensions := some shape.reverse } =
      .ok (copyKernel shape.length grid .pinned) := by
  have valid : (copyBody shape.length).inferredTypes = [.floatArray] ∧
      (copyBody shape.length).validate [.floatArray] = .ok () := by
    obtain one | two | three : shape.length = 1 ∨ shape.length = 2 ∨ shape.length = 3 := by omega
    · rw [one]
      exact ⟨rfl, rfl⟩
    · rw [two]
      exact ⟨rfl, rfl⟩
    · rw [three]
      exact ⟨rfl, rfl⟩
  have laid : Settings.grid { dimensions := some shape.reverse } = .ok grid := accepted
  unfold Kernel.make
  rw [laid, valid.1, valid.2]
  rfl

-- The grid of the copying kernel is the buffer's own shape, far below the limits of a grid.
theorem Encoded.Made.grid {b : Encoded} (made : b.Made) (ranked : 1 ≤ b.shape.length ∧ b.shape.length ≤ 3) :
    ∃ grid, Grid.ofAxes b.shape.reverse = .ok grid ∧ grid.outputShape = b.shape ∧ grid.total = axisProduct b.shape ∧
      b.shape.any (0x100000000 ≤ ·) = false := by
  have laid := made.parts.2.1
  have positive := Texture.pos_of_laid laid
  have small := Texture.le_limit laid
  obtain ⟨grid, accepted, shape, total⟩ := Grid.ofAxes_reverse positive ranked (by omega)
  refine ⟨grid, accepted, shape, total, ?_⟩
  rw [List.any_eq_false]
  intro a member
  have bounds := axis_bounds positive member
  simp only [decide_eq_true_eq]
  omega

theorem checkArgs_copy (rank : Nat) {grid : Grid} (route : Route) (t : Tensor) (counted : t.data.size = grid.total) :
    (copyKernel rank grid route).checkArgs [.array t] = .ok () := by
  have filled : t.size ≠ 0 := by
    have some := grid.total_pos
    rw [← counted] at some
    exact some.ne'
  simp [copyKernel, Kernel.checkArgs, Kernel.checkFrom, Kernel.checkArg, filled, bind, Except.bind]

theorem copy_expressible {rank : Nat} (ranked : 1 ≤ rank ∧ rank ≤ 3) (grid : Grid) (route : Route) (r : Registry) :
    (Shader.build ((copyKernel rank grid route).request ((copyKernel rank grid route).functions r))).isOk = true := by
  have alone : (copyKernel rank grid route).functions r = {} := by
    have calls : (copyKernel rank grid route).body.calls = [] := by
      obtain rfl | rfl | rfl : rank = 1 ∨ rank = 2 ∨ rank = 3 := by omega
      · rfl
      · rfl
      · rfl
    simp [Kernel.functions, calls, Registry.snapshot, Registry.close]
  rw [alone]
  obtain rfl | rfl | rfl : rank = 1 ∨ rank = 2 ∨ rank = 3 := by omega
  · rfl
  · rfl
  · rfl

namespace Session

theorem compile_made (s : Session) (sound : s.Sound) {body : Body} {settings : Settings} {k : Kernel}
    (made : Kernel.make body settings = .ok k) (mode : settings.mode ≠ .gpu) :
    ∃ route, (s.compile body settings).2 = .ok { k with route := route } := by
  have hostAllowed : k.mode ≠ .gpu := Kernel.make_mode body settings k made ▸ mode
  unfold compile
  rw [made]
  dsimp only
  split
  · exact ⟨k.route, rfl⟩
  · have parts := (s.program_parts sound k).2.2
    generalize s.program k = asked at parts
    obtain ⟨next, outcome⟩ := asked
    rcases parts with ⟨cause, rfl⟩ | ⟨found, rfl, _⟩
    · dsimp only
      rw [if_pos (fallsBack_of k (.compilationFailed cause) hostAllowed rfl)]
      unfold latch
      split
      · exact ⟨_, rfl⟩
      · exact ⟨k.route, rfl⟩
    · exact ⟨.device, rfl⟩

-- What a copying kernel gives: the words that evaluation stores of the elements, or of the rounded elements. It gives
-- none if it tries to upload the least integer.
theorem run_copy (s : Session) (sound : s.Sound) (grid : Grid) (route : Route) (t : Tensor)
    (shaped : t.shape = grid.outputShape) (counted : t.data.size = grid.total) :
    (∃ out, (s.run (copyKernel t.shape.length grid route) [.array t]).2.2 = .ok out ∧ out.words.size = grid.total ∧
      ((∀ i : Nat, out.words[i]? = (t.data.get? i).map Single.ofFloat) ∨
        ∀ i : Nat, out.words[i]? = ((Elements.f32 t.singles).get? i).map Single.ofFloat)) ∨
    (s.run (copyKernel t.shape.length grid route) [.array t]).2.2 = .error .overflow ∧ t.data.HoldsLeast ∧
      s.device.isSome := by
  have checked := checkArgs_copy t.shape.length route t counted
  have mode : (copyKernel t.shape.length grid route).mode ≠ .gpu := by simp [copyKernel]
  generalize functions : (copyKernel t.shape.length grid route).functions s.registry = helpers
  rcases s.run_cases sound _ mode [.array t] checked with host | rounded | ⟨lost, ⟨u, member, least⟩, present, _⟩
  · obtain ⟨words, ran, read⟩ := Host.words_copy helpers grid t shaped counted
    refine .inl ⟨Output.ofTensor ⟨grid.outputShape, .f32 words⟩, ?_, ?_⟩
    rotate_left
    · rw [Output.words_ofTensor]
      exact ⟨Host.words_size _ _ _ _ _ _ ran, .inl read⟩
    rw [host, runHost, functions, Host.run_eq]
    change (((Host.words helpers (copyBody t.shape.length) [.floatArray] grid [.array t]).mapError _).map _).map _ = _
    rw [ran]
    rfl
  · rw [functions] at rounded
    obtain ⟨words, ran, read⟩ := Host.words_copy helpers grid ⟨t.shape, .f32 t.singles⟩ shaped
      ((Elements.size_singles t.data).trans counted)
    refine .inl ⟨Output.ofTensor ⟨grid.outputShape, .f32 words⟩, ?_, ?_⟩
    rotate_left
    · rw [Output.words_ofTensor]
      exact ⟨Host.words_size _ _ _ _ _ _ ran, .inr read⟩
    rw [rounded]
    change ((Host.words helpers (copyBody t.shape.length) [.floatArray] grid
      [.array ⟨t.shape, .f32 t.singles⟩]).mapError _).map _ = _
    rw [ran]
    rfl
  · cases List.mem_singleton.mp member
    exact .inr ⟨lost, least, present⟩

-- A copy is a compile and a run, and the words of the result in the shape and type of the buffer.
theorem copy_of_run {s next : Session} {b : Encoded} {source : Tensor} {k : Kernel} {result : Except KernelError Output}
    (decoded : s.codec.decode b b.shape = .ok source) (short : b.shape.any (0x100000000 ≤ ·) = false)
    (compiled : s.compile (copyBody b.shape.length) { dimensions := some b.shape.reverse } = (next, .ok k))
    (ran : (next.run k [.array source]).2.2 = result) :
    (s.copy b).2 = result >>= fun out => Tensor.ofShape b.shape (.ofSingles b.type out.words) := by
  subst ran
  unfold copy
  rw [decoded, short, compiled]
  dsimp only
  generalize next.run k [.array source] = ended
  obtain ⟨after, used, outcome⟩ := ended
  cases outcome <;> rfl

theorem compile_absent {s : Session} (absent : s.device = none) (body : Body) (settings : Settings) :
    (s.compile body settings).1.device = none := by
  unfold compile
  split
  · exact absent
  · split
    · exact absent
    · rw [program_absent absent]
      dsimp only
      split <;> exact absent

theorem copy_ranked (s : Session) (sound : s.Sound) (b : Encoded) (made : b.Made)
    (ranked : 1 ≤ b.shape.length ∧ b.shape.length ≤ 3) :
    ∃ u, s.codec.decode b b.shape = .ok u ∧
      ((∃ t, (s.copy b).2 = .ok t ∧ t.shape = u.shape ∧ t.data.Alike u.data) ∨
        (s.copy b).2 = .error .overflow ∧ u.data.HoldsLeast ∧ b.type = .i64 ∧ s.device.isSome) := by
  obtain ⟨all, count, _, decoded⟩ := s.codec.decode_made b made b.shape ranked rfl
  obtain ⟨grid, accepted, shape, total, short⟩ := made.grid ranked
  obtain ⟨countable, laid, _⟩ := made.parts
  have room := Texture.le_texels _ _ laid
  have size : (all.take (axisProduct b.shape)).size = grid.total := by simp [count, room, total]
  generalize all.take (axisProduct b.shape) = source at decoded size
  have elements : (Elements.ofSingles b.type source).size = grid.total := (Elements.size_ofSingles _ _).trans size
  obtain ⟨route, compiled⟩ : ∃ route, (s.compile (copyBody b.shape.length) { dimensions := some b.shape.reverse }).2 =
      .ok (copyKernel b.shape.length grid route) := s.compile_made sound (Kernel.make_copy ranked accepted) nofun
  have next := (s.compile_sound sound (copyBody b.shape.length) { dimensions := some b.shape.reverse }).1
  refine ⟨_, decoded, ?_⟩
  rcases run_copy _ next grid route ⟨b.shape, .ofSingles b.type source⟩ shape.symm elements with
    ⟨out, ran, words, stored⟩ | ⟨lost, least, present⟩
  · have counted : axisProduct b.shape = (Elements.ofSingles b.type out.words).size := by
      rw [Elements.size_ofSingles, words, total]
    refine .inl ⟨⟨b.shape, .ofSingles b.type out.words⟩, ?_, rfl, ?_⟩
    · rw [copy_of_run decoded short (Prod.ext rfl compiled) ran]
      exact Tensor.ofShape_counted ranked countable counted
    · rcases stored with evaluated | rounded
      · exact Elements.alike_evaluated b.type source out.words evaluated
      · exact Elements.alike_rounded b.type source out.words rounded
  · refine .inr ⟨?_, least, ?_, ?_⟩
    · rw [copy_of_run decoded short (Prod.ext rfl compiled) lost]
      rfl
    · generalize b.type = type at least
      cases type with
      | i64 => rfl
      | f32 | f64 | i32 => exact least.elim
    · cases here : s.device with
      | some _ => rfl
      | none =>
        rw [compile_absent here] at present
        cases present

-- A healthy device is tried, and then the least integer is not copied.
theorem copy_least (s : Session) (sound : s.Sound) {device : Device} (present : s.device = some device)
    (healthy : (device.lost || device.faults.compile) = false) (b : Encoded) (made : b.Made)
    (ranked : 1 ≤ b.shape.length ∧ b.shape.length ≤ 3) {u : Tensor} (decoded : s.codec.decode b b.shape = .ok u)
    (least : u.data.HoldsLeast) : (s.copy b).2 = .error .overflow := by
  obtain ⟨all, count, _, again⟩ := s.codec.decode_made b made b.shape ranked rfl
  obtain ⟨grid, accepted, shape, total, short⟩ := made.grid ranked
  obtain ⟨_, laid, _⟩ := made.parts
  have room := Texture.le_texels _ _ laid
  have counted : u.data.size = grid.total := by
    cases again.symm.trans decoded
    rw [Elements.size_ofSingles]
    simp [count, room, total]
  obtain ⟨found, got⟩ := program_healthy sound present healthy (copy_expressible ranked grid .pinned s.registry)
  obtain ⟨cache, built, after, _⟩ := program_present present (copyKernel b.shape.length grid .pinned)
  have compiled : s.compile (copyBody b.shape.length) { dimensions := some b.shape.reverse } =
      ((s.program (copyKernel b.shape.length grid .pinned)).1, .ok (copyKernel b.shape.length grid .device)) := by
    have host : (copyKernel b.shape.length grid .pinned).mode ≠ .cpu := by simp [copyKernel]
    unfold compile
    rw [Kernel.make_copy ranked accepted]
    dsimp only
    rw [if_neg host]
    generalize s.program (copyKernel b.shape.length grid .pinned) = asked at got
    obtain ⟨next, outcome⟩ := asked
    cases got
    rfl
  have next := (s.program_parts sound (copyKernel b.shape.length grid .pinned)).1
  rw [after] at compiled next
  obtain ⟨again, ready⟩ := program_healthy next rfl healthy (copy_expressible ranked grid .device s.registry)
  have lost := run_lost next rfl ready (checkArgs_copy b.shape.length .device u counted) ?_ ?_
  · rw [copy_of_run decoded short compiled lost]
    rfl
  · intro t member
    cases List.mem_singleton.mp member
    rw [Tensor.size, counted, total]
    exact Texture.le_limit laid
  · exact ⟨u, List.mem_singleton.mpr rfl, least⟩

-- Buffers of another rank are decoded, and then no array has that rank.
theorem copy_unranked (s : Session) (b : Encoded) (made : b.Made) (unranked : ¬(1 ≤ b.shape.length ∧ b.shape.length ≤ 3)) :
    (s.copy b).2 = .error (.invalidArgument (.rank b.shape.length)) := by
  obtain ⟨countable, _, full⟩ := made.parts
  obtain ⟨words, read, _, _⟩ := Bytes.toSingles_whole s.codec.order b.bytes b.texture.texels full
  have refused : s.codec.decode b b.shape = .error (.invalidArgument (.rank b.shape.length)) := by
    rw [s.codec.decode_counted countable countable, if_neg (not_not.mpr rfl), s.codec.words_read countable read]
    exact if_pos (by omega)
  unfold copy
  rw [refused]

end Session

-- Copying a buffer gives what decoding it gives, in every session, unless the decoded array holds the least 64-bit
-- integer and a device is there to be tried. On a healthy device such an array is not copied.
theorem copying_is_decoding (device : Option Device) (order : ByteOrder) (strict : Bool) (capacity : Option Nat)
    (history : List Session.Action) (b : Encoded) (made : b.Made) :
    let s := Session.after device order strict capacity history
    (1 ≤ b.shape.length ∧ b.shape.length ≤ 3 →
      ∃ u, s.codec.decode b b.shape = .ok u ∧
        ((∃ t, (s.copy b).2 = .ok t ∧ t.shape = u.shape ∧ t.data.Alike u.data) ∨
          (s.copy b).2 = .error .overflow ∧ u.data.HoldsLeast ∧ b.type = .i64 ∧ s.device.isSome) ∧
        ∀ d, s.device = some d → (d.lost || d.faults.compile) = false → u.data.HoldsLeast →
          (s.copy b).2 = .error .overflow) ∧
    (¬(1 ≤ b.shape.length ∧ b.shape.length ≤ 3) →
      (s.copy b).2 = .error (.invalidArgument (.rank b.shape.length))) := by
  intro s
  have sound := Session.after_sound device order strict capacity history
  refine ⟨?_, s.copy_unranked b made⟩
  intro ranked
  obtain ⟨u, decoded, copied⟩ := s.copy_ranked sound b made ranked
  exact ⟨u, decoded, copied, fun d present healthy least => s.copy_least sound present healthy b made ranked decoded least⟩

-- Words on both ends of the range of integers, a NaN, and one between two integers.
def rangeEnds : Encoded :=
  ⟨#[0, 0, 0, 0x4f, 0, 0, 0x80, 0xff, 1, 0, 0x80, 0x7f, 0, 0, 0x20, 0x40], ⟨2, 2⟩, [2, 2], .i32⟩

theorem rangeEnds_copied :
    rangeEnds.Made ∧ ((Session.after (some {}) .little false (some 1) [.lose]).copy rangeEnds).2 =
      .ok ⟨[2, 2], .i32 #[2147483647, -2147483648, 0, 3]⟩ := by
  have made : rangeEnds.Made := .taken (show Encoded.ofBytes rangeEnds.bytes [2, 2] .i32 = .ok rangeEnds by decide +kernel)
  have decoded : Codec.decode ⟨.little⟩ rangeEnds [2, 2] = .ok ⟨[2, 2], .i32 #[2147483647, -2147483648, 0, 3]⟩ := by decide +kernel
  obtain ⟨u, source, ⟨⟨shape, data⟩, copied, shapes, alike⟩ | ⟨_, _, wrong, _⟩, _⟩ :=
    (copying_is_decoding (some {}) .little false (some 1) [.lose] rangeEnds made).1 (by decide)
  · have same : u = ⟨[2, 2], .i32 #[2147483647, -2147483648, 0, 3]⟩ := Except.ok.inj (source.symm.trans decoded)
    subst same
    cases shapes
    cases alike
    exact ⟨made, copied⟩
  · cases wrong

-- The word of the least integer, as a 64-bit integer.
def leastWord : Encoded := ⟨#[0, 0, 0, 0xdf], ⟨1, 1⟩, [1], .i64⟩

theorem leastWord_is_not_copied :
    let s := Session.after (some {}) .little false none []
    leastWord.Made ∧ s.codec.decode leastWord leastWord.shape = .ok ⟨[1], .i64 #[-9223372036854775808]⟩ ∧
      (s.copy leastWord).2 = .error .overflow := by
  intro s
  have made : leastWord.Made := .taken (show Encoded.ofBytes leastWord.bytes [1] .i64 = .ok leastWord by decide +kernel)
  have decoded : s.codec.decode leastWord leastWord.shape = .ok ⟨[1], .i64 #[-9223372036854775808]⟩ := by decide +kernel
  have present : s.device = some { hostOrder := some .little } := rfl
  refine ⟨made, decoded, ?_⟩
  exact s.copy_least (Session.new_sound (some {}) .little false none) present rfl leastWord made (by decide) decoded
    (Array.mem_singleton.mpr rfl)

end GridKernel
