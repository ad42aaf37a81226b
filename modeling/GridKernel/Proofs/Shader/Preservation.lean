import GridKernel.Proofs.Function.Stamps
import GridKernel.Proofs.Shader.Blocks
import GridKernel.Proofs.Shader.Loads

namespace GridKernel

def Arg.number? : Arg → Option Float
  | .scalar v => some v
  | .array _ => none

def Value.ofArg (type : ValueType) : Arg → Value
  | .scalar v => .scalar (if type = .int then Whole.trunc v else v)
  | .array t => .array (View.ofTensor t)

theorem Value.bindFrom_fitting (position : Nat) (types : List ValueType) (args : List Arg) (fits : FittingArgs types args) :
    Value.bindFrom position types args = .ok (List.zipWith Value.ofArg types args) := by
  induction fits generalizing position with
  | nil => rfl
  | @cons type arg types args head _ ih =>
    rw [Value.bindFrom, ih]
    cases head <;> rfl

theorem picked_at {β : Type} (test : ValueType → Bool) (pick : Arg → Option β)
    (picked : ∀ type arg, Arg.Fits type arg → ((pick arg).isSome ↔ test type)) (types : List ValueType)
    (args : List Arg) (fits : FittingArgs types args) (place param : Nat)
    (stands : (positions test types)[place]? = some param) :
    ∃ arg v, args[param]? = some arg ∧ pick arg = some v ∧ (args.filterMap pick)[place]? = some v := by
  have all : (positions test types).map (fun i => args[i]?.bind pick) = (args.filterMap pick).map some :=
    positions_filterMap test pick picked [] types args fits
  have here := congrArg (·[place]?) all
  simp only [List.getElem?_map, stands] at here
  cases found : (args.filterMap pick)[place]? with
  | none =>
    rw [found] at here
    cases here
  | some v =>
    rw [found] at here
    obtain ⟨arg, present, chosen⟩ := Option.bind_eq_some_iff.mp (Option.some.inj here)
    exact ⟨arg, v, present, chosen, rfl⟩

theorem flatMap_three {α β : Type} (f : α → List β) (three : ∀ a, (f a).length = 3) (l : List α) (slot k : Nat)
    (axis : k < 3) (a : α) (found : l[slot]? = some a) : (l.flatMap f)[slot * 3 + k]? = (f a)[k]? := by
  induction l generalizing slot with
  | nil => cases found
  | cons b l ih =>
    have length := three b
    rw [List.flatMap_cons]
    cases slot with
    | zero =>
      cases found
      rw [List.getElem?_append_left (by omega), Nat.zero_mul, Nat.zero_add]
    | succ slot =>
      rw [List.getElem?_append_right (by omega), ← ih slot found]
      congr 1
      omega

namespace Shader

-- Arguments in the buffers of a program, in the order of the parameters.
def Buffers.ofArgs (args : List Arg) (limit : Option Nat) : Buffers where
  scalars := args.filterMap Arg.number?
  shapes := (args.filterMap Arg.tensor?).flatMap fun t => paddedShape t.shape
  inputs := (args.filterMap Arg.tensor?).map Tensor.data
  limit := limit

theorem paddedShape_length (shape : List Nat) : (paddedShape shape).length = 3 := by
  obtain ⟨z, y, x, padded⟩ := paddedShape_three shape
  rw [padded]
  rfl

section Kernel

variable {types : List ValueType} {args : List Arg} {limit : Option Nat} {env : Env}

theorem arg_value (bound : env.args = List.zipWith Value.ofArg types args) (index : Nat) (v : Value)
    (found : env.args[index]? = some v) :
    ∃ type arg, types[index]? = some type ∧ args[index]? = some arg ∧ v = Value.ofArg type arg := by
  rw [bound, List.getElem?_zipWith] at found
  cases hasType : types[index]? with
  | none => simp [hasType] at found
  | some type =>
    cases hasArg : args[index]? with
    | none => simp [hasType, hasArg] at found
    | some arg =>
      simp only [hasType, hasArg, Option.some.injEq] at found
      exact ⟨type, arg, rfl, rfl, found.symm⟩

theorem fitting_filled (fits : FittingArgs types args) (t : Tensor) (member : .array t ∈ args) : 0 < t.size := by
  induction fits with
  | nil => cases member
  | cons head _ ih =>
    rcases List.mem_cons.mp member with rfl | later
    · cases head with
      | array _ filled => exact filled
    · exact ih later

theorem letAll_mem {bindings : List Binding} {b : Buffers} {lets : List Let} {cells after : Cells}
    (ran : letAll bindings b lets cells = some after) {name : String} {c : Cell} (member : (name, c) ∈ after) :
    (∃ l ∈ lets, l.name = name ∧ ∃ before, l.value.value bindings b before = some c) ∨ (name, c) ∈ cells := by
  induction lets generalizing cells with
  | nil =>
    cases ran
    exact .inr member
  | cons l lets ih =>
    obtain ⟨first, value, ran⟩ := Option.bind_eq_some_iff.mp ran
    rcases ih ran with ⟨k, listed, later⟩ | earlier
    · exact .inl ⟨k, List.mem_cons_of_mem _ listed, later⟩
    · rcases List.mem_cons.mp earlier with same | old
      · cases same
        exact .inl ⟨l, List.mem_cons_self, rfl, cells, value⟩
      · exact .inr old

theorem letAll_other {bindings : List Binding} {b : Buffers} {lets : List Let} {cells after : Cells}
    (ran : letAll bindings b lets cells = some after) {name : String} (other : ∀ l ∈ lets, name ≠ l.name) :
    after.lookup name = cells.lookup name := by
  induction lets generalizing cells with
  | nil =>
    cases ran
    rfl
  | cons l lets ih =>
    obtain ⟨first, _, ran⟩ := Option.bind_eq_some_iff.mp ran
    obtain ⟨here, later⟩ := List.forall_mem_cons.mp other
    rw [ih ran later, List.lookup_cons, beq_eq_false_iff_ne.mpr here]

theorem lookup_mem {cells : Cells} {name : String} {c : Cell} (found : cells.lookup name = some c) : (name, c) ∈ cells := by
  obtain ⟨front, back, rfl, _⟩ := List.lookup_eq_some_iff.mp found
  simp

theorem constant_not_param (p : Program) (index : Nat) (c : Cell) : (paramName index, c) ∉ p.constantCells := by
  have other {text : String} (apart : "p".toList.head? ≠ text.toList.head?) : ¬ paramName index = text :=
    numbered_ne apart (by decide) index
  intro member
  have named : paramName index ∈ p.constantCells.map Prod.fst := List.mem_map.mpr ⟨_, member, rfl⟩
  have names : p.constantCells.map Prod.fst = ["DIM_X", "DIM_Y", "DIM_Z", "OUTPUT_LEN", "ROW_STRIDE"] := rfl
  rw [names] at named
  simp only [List.mem_cons, List.not_mem_nil, or_false] at named
  rcases named with same | same | same | same | same <;> exact other (by decide) same

theorem extent_not_param (axis : Axis) (index : Nat) : axisConstant axis ≠ paramName index := by
  intro same
  have apart : "p".toList.head? ≠ (axisConstant axis).toList.head? := by cases axis <;> decide
  exact numbered_ne apart (by decide) index same.symm

-- The sizes of the grid are found behind whatever parameters a function has.
theorem frame_extent (p : Program) (b : Buffers) (thread : Coords) {cells : Cells}
    (call : String → List Float → Option Float) (axis : Axis)
    (kept : cells.lookup (axisConstant axis) = p.constantCells.lookup (axisConstant axis)) :
    (p.frame b thread cells call).extent axis = some (ofCoordinate (p.sizes.get axis)) := by
  have constant : p.constantCells.lookup (axisConstant axis) = some (.word (p.sizes.get axis)) := by cases axis <;> rfl
  change (do let size ← cells.lookup (axisConstant axis); let c ← b.convert .number size; c.number?) = _
  rw [kept, constant]
  rfl

-- A scalar is read from its word, truncated where its type asks for it.
theorem scalar_value {bindings : List Binding} {cells : Cells} {param word : Nat} {whole : Bool} {c : Cell}
    (bound : ∃ found, bindings.find? (·.name = "scalars") = some found ∧ found.number = 0)
    (value : (scalarLet param word whole).value.value bindings (.ofArgs args limit) cells = some c) :
    ∃ u, (args.filterMap Arg.number?)[word]? = some u ∧ c = .number (if whole then Whole.trunc u else u) := by
  obtain ⟨found, named, zero⟩ := bound
  have element : (Code.element "scalars" (.word word)).value bindings (.ofArgs args limit) cells =
      (args.filterMap Arg.number?)[word]?.map .number := by
    simp [Code.value, named, Cell.word?, zero, Buffers.element?, Buffers.ofArgs]
  cases whole with
  | false =>
    obtain ⟨u, stored, rfl⟩ := Option.map_eq_some_iff.mp (element.symm.trans value)
    exact ⟨u, stored, rfl⟩
  | true =>
    obtain ⟨first, read, last⟩ := Option.bind_eq_some_iff.mp value
    obtain ⟨u, stored, rfl⟩ := Option.map_eq_some_iff.mp (element.symm.trans read)
    cases last
    exact ⟨u, stored, rfl⟩

theorem param_consistent (p : Program) (grid : Grid) (workgroup : Nat) (fits : FittingArgs types args)
    (manifest : p.manifest = .ofTypes types grid workgroup)
    (lets : p.lets = (positions (fun type => !type.isArray) types).mapIdx fun word param =>
      scalarLet param word (types[param]? = some .int))
    (bound : env.args = List.zipWith Value.ofArg types args) {cells : Cells}
    (ran : letAll p.manifest.bindings (.ofArgs args limit) p.lets p.constantCells = some cells) (index : Nat) :
    Consistent (· = ·) ((cells.lookup (paramName index)).bind Cell.number?) (env.scalarArg index) := by
  intro v w yielded evaluated
  obtain ⟨c, found, number⟩ := Option.bind_eq_some_iff.mp yielded
  rcases letAll_mem ran (lookup_mem found) with ⟨l, listed, named, before, value⟩ | constant
  · rw [lets, List.mem_mapIdx] at listed
    obtain ⟨place, inside, rfl⟩ := listed
    have same : (positions (fun type => !type.isArray) types)[place] = index := numbered_inj named
    have stands : (positions (fun type => !type.isArray) types)[place]? = some index := by
      rw [List.getElem?_eq_getElem inside, same]
    rw [same, manifest] at value
    obtain ⟨u, stored, rfl⟩ := scalar_value (scalars_bound types grid workgroup) value
    obtain ⟨arg, first, present, picked, listed⟩ := picked_at _ Arg.number?
      (by intro type arg fit; cases fit <;> simp [Arg.number?, ValueType.isArray]) types args fits place index stands
    cases listed.symm.trans stored
    cases arg with
    | array t => cases picked
    | scalar given =>
      cases picked
      cases number
      unfold Env.scalarArg at evaluated
      split at evaluated
      · rename_i x held
        cases evaluated
        obtain ⟨type, arg, typed, given, made⟩ := arg_value bound index _ held
        cases present.symm.trans given
        cases made
        simp only [typed, Option.some.injEq, decide_eq_true_eq]
      · cases evaluated
      · cases evaluated
  · exact absurd constant (constant_not_param p index c)

theorem bits_answer (p : Program) (b : Buffers) (word : Single) :
    p.invoke b [bitsFunction] "kf_bits" [.word word.bits.toNat] = some word.toFloat := by
  have made : b.convert .bits (.word word.bits.toNat) = some (.number word.toFloat) := by
    rw [Buffers.convert, Nat.toUInt32_eq, UInt32.ofNat_toNat]
  have called : bitsFunction.call p.manifest.bindings b p.constantCells [.word word.bits.toNat] =
      b.convert .bits (.word word.bits.toNat) := by
    simp [Function.call, bitsFunction, bindParams, letAll, Code.value]
  have found : [bitsFunction].find? (·.name = "kf_bits") = some bitsFunction := List.find?_cons_of_pos (by decide)
  rw [Program.invoke, found, Option.bind_eq_bind, Option.bind_some, called, made]
  rfl

section Arrays

variable (p : Program) (grid : Grid) (workgroup : Nat) (fits : FittingArgs types args)
  (manifest : p.manifest = .ofTypes types grid workgroup) (shaped : ∀ t, .array t ∈ args → t.Shaped)
  (addressed : ∀ t, .array t ∈ args → (Buffers.ofArgs args limit).Addresses t)

include fits manifest shaped addressed

theorem loaders_answer {param slot : Nat} (stands : (positions ValueType.isArray types)[slot]? = some param) :
    ∃ t, args[param]? = some (.array t) ∧ 0 < t.size ∧ t.Shaped ∧
      ∀ iz iy ix, ∃ v, p.invoke (.ofArgs args limit) p.loaders ("load_in" ++ toString slot)
        [.number iz, .number iy, .number ix] = some v ∧ (View.ofTensor t).load [iz, iy, ix] = .ok v := by
  obtain ⟨arg, t, present, picked, listed⟩ := picked_at ValueType.isArray Arg.tensor?
    (by intro type arg fit; cases fit <;> simp [Arg.tensor?, ValueType.isArray]) types args fits slot param stands
  cases arg with
  | scalar c => cases picked
  | array u =>
    cases picked
    have member : Arg.array t ∈ args := List.mem_of_getElem? present
    refine ⟨t, present, fitting_filled fits t member, shaped t member, ?_⟩
    intro iz iy ix
    have inside : slot < (positions ValueType.isArray types).length := (List.getElem?_eq_some_iff.mp stands).1
    have sizes (k : Nat) (axis : k < 3) : (Buffers.ofArgs args limit).shapes[slot * 3 + k]? =
        [(View.ofTensor t).sizes.z, (View.ofTensor t).sizes.y, (View.ofTensor t).sizes.x][k]? := by
      rw [← Tensor.paddedShape_sizes (t.shaped_parts (shaped t member)).1.2]
      exact flatMap_three _ (fun t => paddedShape_length t.shape) _ slot k axis t listed
    have bound : Bound p.manifest.bindings (.ofArgs args limit) slot (View.ofTensor t).sizes t.data := by
      rw [manifest]
      exact ⟨shapes_bound types grid workgroup, input_bound types grid workgroup inside, sizes 0 (by decide),
        sizes 1 (by decide), sizes 2 (by decide), by simp [Buffers.ofArgs, List.getElem?_map, listed]⟩
    obtain ⟨v, called, loaded⟩ := loader_loads (shaped t member) (addressed t member) bound p.constantCells iz iy ix
    refine ⟨v, ?_, loaded⟩
    rw [Program.invoke, loader_found (by rw [manifest]; exact inside), Option.bind_eq_bind, Option.bind_some, called]
    rfl

-- With fewer indices the loader is given zeros, and with more than three it has no form.
theorem load_kernel (bound : env.args = List.zipWith Value.ofArg types args) (param slot : Nat) (view : View)
    (indices : List Float) (v : Float) (slotted : (positions ValueType.isArray types).idxOf? param = some slot)
    (given : env.arrayArg? param = some view)
    (loaded : p.invoke (.ofArgs args limit) p.loaders ("load_in" ++ toString slot)
      ((List.replicate (3 - indices.length) 0.0 ++ indices).map .number) = some v) : view.load indices = .ok v := by
  obtain ⟨inside, stands, _⟩ := List.idxOf?_eq_some_iff.mp slotted
  obtain ⟨t, present, filled, own, answers⟩ := loaders_answer p grid workgroup fits manifest shaped addressed
    (show (positions ValueType.isArray types)[slot]? = some param by rw [List.getElem?_eq_getElem inside, stands])
  have seen : view = View.ofTensor t := by
    unfold Env.arrayArg? at given
    split at given
    · rename_i held
      cases given
      obtain ⟨type, arg, typed, found, made⟩ := arg_value bound param _ held
      cases present.symm.trans found
      cases made
      rfl
    · cases given
  rw [seen]
  by_cases short : indices.length ≤ 3
  · have three : (List.replicate (3 - indices.length) (0.0 : Float) ++ indices).length = 3 := by
      rw [List.length_append, List.length_replicate]
      omega
    obtain ⟨iz, iy, ix, all⟩ := List.length_eq_three.mp three
    obtain ⟨u, called, read⟩ := answers iz iy ix
    rw [← View.load_padded _ indices short (own.inside_zero filled), all, read]
    rw [all] at loaded
    cases called.symm.trans loaded
    rfl
  · have long : ((List.replicate (3 - indices.length) (0.0 : Float) ++ indices).map Cell.number).length ≠ 3 := by
      rw [List.length_map, List.length_append, List.length_replicate]
      omega
    have refused (outer : Cells) : bindParams ((loader slot).params.map Prod.fst)
        ((List.replicate (3 - indices.length) (0.0 : Float) ++ indices).map .number) outer = none := if_neg long.symm
    rw [Program.invoke, loader_found (by rw [manifest]; exact inside), Option.bind_eq_bind, Option.bind_some, Function.call,
      refused] at loaded
    cases loaded

end Arrays

end Kernel

section Helpers

variable {functions : Snapshot}

-- A helper with a form on the device has a body and takes numbers only.
theorem checkDevice_parts (checked : functions.checkDevice = .ok ()) (d : Definition) (member : d ∈ functions.functions) :
    d.body.isNative = false ∧ ∀ type ∈ d.paramTypes, type.isArray = false := by
  unfold Snapshot.checkDevice at checked
  split at checked
  · cases checked
  · split at checked
    · cases checked
    · rename_i supported
      have none := List.findSome?_eq_none_iff.mp supported d member
      split at none
      · cases none
      · rename_i body
        split at none
        · cases none
        · rename_i numbers
          exact ⟨by simpa using body, by simpa using numbers⟩

theorem lowerHelper_parts {d : Definition} {out : Option Helper} (lowered : lowerHelper functions d = .ok out)
    (body : d.body.isNative = false) :
    ∃ source commands, d.body = .kernel source ∧
      lowerBlock ⟨functions.get?, d.paramTypes, fun _ => none⟩ source.stmts = .ok commands ∧
      out = some ⟨d.name, List.range source.params.length, commands⟩ := by
  unfold lowerHelper at lowered
  split at lowered
  · rename_i native
    rw [native] at body
    cases body
  · rename_i source kernel
    obtain ⟨commands, block, last⟩ := bind_eq_ok lowered
    cases last
    exact ⟨source, commands, kernel, block, rfl⟩

-- The first helper of a name is lowered from the first definition of it.
theorem find_helper (all : List Definition) (lowered : List (Option Helper)) (name : String) (h : Helper)
    (callee : Definition) (ran : all.mapM (lowerHelper functions) = .ok lowered)
    (helper : (lowered.filterMap id).find? (·.name = name) = some h)
    (known : all.find? (·.name = name) = some callee) (bodies : ∀ d ∈ all, d.body.isNative = false) :
    lowerHelper functions callee = .ok (some h) := by
  have each := mapM_eq_ok ran
  clear ran
  induction each with
  | nil => cases known
  | @cons d out all lowered head _ ih =>
    obtain ⟨source, commands, _, _, rfl⟩ := lowerHelper_parts head (bodies d (by simp))
    simp only [List.filterMap_cons, id_eq] at helper
    by_cases same : d.name = name
    · rw [List.find?_cons_of_pos (by simpa using same)] at known helper
      cases known
      cases helper
      exact head
    · rw [List.find?_cons_of_neg (by simpa using same)] at known helper
      exact ih helper known fun d member => bodies d (List.mem_cons_of_mem _ member)

end Helpers

theorem body_consistent {names : Names} {frame : Frame} {env : Env} (agrees : Agrees names frame env) (fuel : Nat)
    (body : Body) (types : List ValueType) (valid : body.validate types = .ok ()) (commands : List Command)
    (lowered : lowerBlock names body.stmts = .ok commands) :
    Consistent (· = ·) (do let outcome ← runBlock frame fuel commands []; outcome.result?)
      (env.runFrom body.stmts (Array.replicate body.locals 0.0)) := by
  obtain ⟨after, checked, _⟩ := Body.validate_parts valid
  have proper : Scope.empty.Proper := ⟨List.nodup_nil, List.nil_subset _⟩
  have tracks : Tracks Scope.empty.visible [] (Array.replicate body.locals 0.0) := ⟨rfl, nofun⟩
  have follows := lowerBlock_follows agrees fuel body.stmts commands lowered _ after proper checked _ _ tracks
  intro v w yielded evaluated
  obtain ⟨outcome, ran, result⟩ := Option.bind_eq_some_iff.mp yielded
  unfold Env.runFrom at evaluated
  split at evaluated
  · rename_i u executed
    cases evaluated
    cases follows outcome _ ran executed
    cases result
    rfl
  · cases evaluated
  · cases evaluated

structure Built (r : Request) (p : Program) : Prop where
  device : r.functions.checkDevice = .ok ()
  helpers : ∃ lowered, r.functions.functions.mapM (lowerHelper r.functions) = .ok lowered ∧ p.helpers = lowered.filterMap id
  body : lowerBlock ⟨r.functions.get?, r.types, (positions ValueType.isArray r.types).idxOf?⟩ r.body.stmts = .ok p.body
  manifest : p.manifest = .ofTypes r.types r.grid workgroupSize
  sizes : p.sizes = r.grid.sizes
  lets : p.lets = (positions (fun type => !type.isArray) r.types).mapIdx fun word param =>
    scalarLet param word (r.types[param]? = some .int)

theorem build_parts {r : Request} {p : Program} (built : build r = .ok p) : Built r p := by
  unfold build at built
  obtain ⟨_, device, built⟩ := bind_eq_ok built
  obtain ⟨lowered, helpers, built⟩ := bind_eq_ok built
  obtain ⟨commands, body, last⟩ := bind_eq_ok built
  cases last
  exact ⟨device, ⟨lowered, helpers, rfl⟩, body, rfl, rfl, rfl⟩

section Calls

variable {p : Program} {n : Nat} {args : List Float} {cells : Cells}
  (bound : bindParams ((List.range n).map paramName) (args.map .number) p.constantCells = some cells)

include bound

theorem bindParams_param (index : Nat) (v : Float) (found : (cells.lookup (paramName index)).bind Cell.number? = some v) :
    args[index]? = some v := by
  obtain ⟨c, found, number⟩ := Option.bind_eq_some_iff.mp found
  unfold bindParams at bound
  split at bound
  · cases bound
    rcases List.mem_append.mp (lookup_mem found) with own | constant
    · obtain ⟨place, stands⟩ := List.mem_iff_getElem?.mp own
      obtain ⟨named, given⟩ := List.getElem?_zip_eq_some.mp stands
      simp only [List.getElem?_map, Option.map_eq_some_iff] at named given
      obtain ⟨i, ranged, same⟩ := named
      obtain ⟨u, present, rfl⟩ := given
      obtain ⟨_, rfl⟩ := List.getElem?_eq_some_iff.mp ranged
      rw [List.getElem_range] at same
      obtain rfl := numbered_inj same
      cases number
      exact present
    · exact absurd constant (constant_not_param p index c)
  · cases bound

theorem bindParams_extent (axis : Axis) :
    cells.lookup (axisConstant axis) = p.constantCells.lookup (axisConstant axis) := by
  unfold bindParams at bound
  split at bound
  · cases bound
    have none : (((List.range n).map paramName).zip (args.map Cell.number)).lookup (axisConstant axis) = none := by
      rw [List.lookup_eq_none_iff]
      rintro ⟨name, c⟩ member
      obtain ⟨i, _, rfl⟩ := List.mem_map.mp (List.of_mem_zip member).1
      simpa using extent_not_param axis i
    rw [List.lookup_append, none, Option.none_or]
  · cases bound

end Calls

-- A call yields what the helper evaluates to, before its result is truncated. Both sides count
-- nested calls down, the program from any depth and evaluation from its own.
theorem call_consistent {r : Request} {p : Program} (built : Built r p)
    (valid : ∀ d ∈ r.functions.functions, d.validate = .ok ()) (b : Buffers) (thread : Coords) (fuel depth left : Nat)
    (name : String) (callee : Definition) (args : List Float) (known : r.functions.get? name = some callee) :
    Consistent (fun v w => (if callee.returnType = .int then Whole.trunc v else v) = w)
      (p.call b thread fuel depth name args)
      (enter r.functions.get? ⟨thread, r.grid.sizes⟩ left callee (args.map .scalar)) := by
  obtain ⟨lowered, helpers, listed⟩ := built.helpers
  induction depth generalizing left name callee args with
  | zero => exact .nothing _
  | succ depth ih =>
    cases left with
    | zero => exact .failure _ _
    | succ left =>
      have member : callee ∈ r.functions.functions := List.mem_of_find?_eq_some known
      intro v w yielded entered
      rw [Program.call] at yielded
      obtain ⟨h, found, yielded⟩ := Option.bind_eq_some_iff.mp yielded
      obtain ⟨cells, bound, yielded⟩ := Option.bind_eq_some_iff.mp yielded
      rw [listed] at found
      have bodies (d : Definition) (listed : d ∈ r.functions.functions) := (checkDevice_parts built.device d listed).1
      have own := find_helper _ lowered name h callee helpers found known bodies
      obtain ⟨body, commands, kernel, block, made⟩ := lowerHelper_parts own (bodies callee member)
      cases made
      have agrees : Agrees ⟨r.functions.get?, callee.paramTypes, fun _ => none⟩
          (p.frame b thread cells (p.call b thread fuel depth))
          ⟨r.functions.get?, ⟨thread, r.grid.sizes⟩, enter r.functions.get? ⟨thread, r.grid.sizes⟩ left,
            args.map .scalar⟩ := by
        refine ⟨rfl, ?_, fun _ => rfl, fun axis => ?_, nofun, ?_, fun name callee args known => ih left name callee args known⟩
        · intro index x y first second
          have given := bindParams_param bound index x first
          simp only [Env.scalarArg, List.getElem?_map, given, Option.map_some] at second
          cases second
          rfl
        · rw [frame_extent p b thread _ axis (bindParams_extent bound axis), built.sizes]
        · intro name callee known
          exact (checkDevice_parts built.device callee (List.mem_of_find?_eq_some known)).2
      have body' := body_consistent agrees fuel body callee.paramTypes
        (Definition.validate_body (valid callee member) kernel) commands block
      rw [enter, kernel] at entered
      obtain ⟨u, ran, rfl⟩ := map_eq_ok entered
      rw [body' v u yielded ran]

theorem kernel_consistent {r : Request} {p : Program} (built : Built r p)
    (checked : ∀ d ∈ r.functions.functions, d.validate = .ok ()) (valid : r.body.validate r.types = .ok ())
    {args : List Arg} (fits : FittingArgs r.types args) (shaped : ∀ t, .array t ∈ args → t.Shaped) {limit : Option Nat}
    (addressed : ∀ t, .array t ∈ args → (Buffers.ofArgs args limit).Addresses t) (thread : Coords) {v w : Float}
    (yields : p.Yields (.ofArgs args limit) thread v)
    (evaluated : evaluate r.functions.get? ⟨thread, r.grid.sizes⟩ r.body (List.zipWith Value.ofArg r.types args) = .ok w) :
    v = w := by
  obtain ⟨fuel, yielded⟩ := yields
  rw [Program.value] at yielded
  obtain ⟨cells, ran, yielded⟩ := Option.bind_eq_some_iff.mp yielded
  have others : ∀ axis, ∀ l ∈ p.lets, axisConstant axis ≠ l.name := by
    intro axis l listed
    rw [built.lets, List.mem_mapIdx] at listed
    obtain ⟨place, inside, rfl⟩ := listed
    exact extent_not_param axis _
  have agrees : Agrees ⟨r.functions.get?, r.types, (positions ValueType.isArray r.types).idxOf?⟩
      (p.frame (.ofArgs args limit) thread cells (p.call (.ofArgs args limit) thread fuel fuel))
      ⟨r.functions.get?, ⟨thread, r.grid.sizes⟩, enter r.functions.get? ⟨thread, r.grid.sizes⟩ maxCallDepth,
        List.zipWith Value.ofArg r.types args⟩ := by
    refine ⟨rfl, param_consistent p r.grid workgroupSize fits built.manifest built.lets rfl ran, fun _ => rfl, fun axis => ?_,
      load_kernel p r.grid workgroupSize fits built.manifest shaped addressed rfl, ?_, ?_⟩
    · rw [frame_extent p _ thread _ axis (letAll_other ran (others axis)), built.sizes]
    · intro name callee known
      exact (checkDevice_parts built.device callee (List.mem_of_find?_eq_some known)).2
    · intro name callee given known
      exact call_consistent built checked _ thread fuel fuel maxCallDepth name callee given known
  exact body_consistent agrees fuel r.body r.types valid p.body built.body v w yielded evaluated

end Shader

end GridKernel
