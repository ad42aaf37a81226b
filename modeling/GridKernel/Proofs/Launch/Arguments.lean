import GridKernel.Device
import GridKernel.Session.Kernel
import GridKernel.Proofs.Eval.Agreement

namespace GridKernel

-- An argument that fits a parameter: a number for a number, a filled array for an array.
inductive Arg.Fits : ValueType → Arg → Prop where
  | float (v : Float) : Fits .float (.scalar v)
  | int (v : Float) : Fits .int (.scalar v)
  | array (t : Tensor) (filled : 0 < t.size) : Fits .floatArray (.array t)

abbrev FittingArgs : List ValueType → List Arg → Prop := List.Forall₂ Arg.Fits

theorem Kernel.checkArg_fits (position : Nat) (type : ValueType) (arg : Arg) :
    Kernel.checkArg position type arg = .ok () ↔ Arg.Fits type arg := by
  constructor
  · intro checked
    cases type <;> cases arg <;> simp [Kernel.checkArg] at checked
    · exact .float _
    · exact .int _
    · exact .array _ (Nat.pos_of_ne_zero checked)
  · intro fits
    cases fits with
    | float => rfl
    | int => rfl
    | array t filled => simp [Kernel.checkArg, Nat.ne_of_gt filled]

theorem Kernel.checkFrom_fits (position : Nat) (types : List ValueType) (args : List Arg)
    (length : args.length = types.length) :
    Kernel.checkFrom position types args = .ok () ↔ FittingArgs types args := by
  induction types generalizing position args with
  | nil =>
    cases args with
    | nil => exact ⟨fun _ => .nil, fun _ => rfl⟩
    | cons => cases length
  | cons type types ih =>
    cases args with
    | nil => cases length
    | cons arg args =>
      have rest := ih (position + 1) args (by simpa using length)
      simp only [Kernel.checkFrom, List.forall₂_cons, ← Kernel.checkArg_fits position, ← rest]
      cases Kernel.checkArg position type arg <;> simp [bind, Except.bind]

theorem Kernel.checkArgs_fits (k : Kernel) (args : List Arg) :
    k.checkArgs args = .ok () ↔ FittingArgs k.types args := by
  unfold Kernel.checkArgs
  split
  · rename_i length
    exact ⟨nofun, fun fits => absurd fits.length_eq.symm length⟩
  · rename_i length
    exact Kernel.checkFrom_fits 0 k.types args (by omega)

-- The argument as a device can hold it: numbers and elements rounded to 32-bit words.
def Arg.rounded : Arg → Arg
  | .scalar v => .scalar (Single.ofFloat v).toFloat
  | .array t => .array ⟨t.shape, .f32 t.singles⟩

def Arg.word? : Arg → Option Single
  | .scalar v => some (Single.ofFloat v)
  | .array _ => none

def Arg.tensor? : Arg → Option Tensor
  | .scalar _ => none
  | .array t => some t

-- Reading arguments back at the positions of some types. The front has been passed already.
theorem positions_filterMap {β : Type} (test : ValueType → Bool) (pick : Arg → Option β)
    (picked : ∀ type arg, Arg.Fits type arg → ((pick arg).isSome ↔ test type))
    (front : List Arg) (types : List ValueType) (args : List Arg) (fits : FittingArgs types args) :
    (((types.zipIdx front.length).filter fun (type, _) => test type).map Prod.snd).map
        (fun i : Nat => ((front ++ args)[i]?).bind pick) =
      (args.filterMap pick).map some := by
  induction fits generalizing front with
  | nil => rfl
  | @cons type arg types args head _ ih =>
    have tail := ih (front ++ [arg])
    simp only [List.length_append, List.length_singleton, List.append_assoc, List.singleton_append] at tail
    have known := picked type arg head
    cases found : pick arg with
    | none =>
      have off : test type = false := by simpa [found] using known
      simpa [List.zipIdx_cons, off, found] using tail
    | some v =>
      have on : test type = true := by simpa [found] using known
      simpa [List.zipIdx_cons, on, found] using tail

theorem scalarWords_positions (types : List ValueType) (args : List Arg) (fits : FittingArgs types args) :
    Kernel.scalarWords args (positions (fun type => !type.isArray) types) = args.filterMap Arg.word? := by
  have read := positions_filterMap (fun type => !type.isArray) Arg.word?
    (by intro type arg fit; cases fit <;> simp [Arg.word?, ValueType.isArray]) [] types args fits
  have back := congrArg (List.map fun w : Option Single => w.getD Single.zero) read
  simp only [List.map_map, List.length_nil, List.nil_append, Function.comp_def, Option.getD_some,
    List.map_id'] at back
  rw [← back]
  simp only [Kernel.scalarWords, positions, List.map_map]
  congr 1
  funext entry
  simp only [Function.comp]
  cases args[entry.2]? with
  | none => rfl
  | some arg => cases arg <;> rfl

theorem arrays_positions (types : List ValueType) (args : List Arg) (fits : FittingArgs types args) :
    Kernel.arrays args (positions ValueType.isArray types) = args.filterMap Arg.tensor? := by
  have read := positions_filterMap ValueType.isArray Arg.tensor?
    (by intro type arg fit; cases fit <;> simp [Arg.tensor?, ValueType.isArray]) [] types args fits
  have back := congrArg (List.filterMap id) read
  simp only [List.filterMap_map, List.length_nil, List.nil_append, Function.comp_def, id] at back
  rw [List.filterMap_some] at back
  rw [← back]
  simp only [Kernel.arrays, positions, List.filterMap_map]
  congr 1
  funext entry
  simp only [Function.comp]
  cases args[entry.2]? with
  | none => rfl
  | some arg => cases arg <;> rfl

theorem paddedShape_three (shape : List Nat) : ∃ z y x, paddedShape shape = [z, y, x] := by
  match shape with
  | [] => exact ⟨1, 1, 1, rfl⟩
  | [x] => exact ⟨1, 1, x, rfl⟩
  | [y, x] => exact ⟨1, y, x, rfl⟩
  | z :: y :: x :: _ => exact ⟨z, y, x, by simp [paddedShape]⟩

def PaddedWords (t : Tensor) (words : Array Single) : Prop :=
  ∃ n, words = t.singles ++ Array.replicate n Single.zero

-- A padding word reads as zero, which is what a read outside the array gives anyway.
theorem padded_elementAt (data : Array Single) (n : Nat) (sizes : Coords) (z y x : Nat) :
    View.elementAt ⟨.f32 (data ++ Array.replicate n Single.zero), sizes⟩ z y x =
      View.elementAt ⟨.f32 data, sizes⟩ z y x := by
  have zero : Single.zero.toFloat = 0.0 := by decide
  have same : ∀ i : Nat, ((data ++ Array.replicate n Single.zero)[i]?.map Single.toFloat).getD 0.0 =
      (data[i]?.map Single.toFloat).getD 0.0 := by
    intro i
    by_cases inside : i < data.size
    · rw [Array.getElem?_append_left inside]
    · have outside : data[i]? = none := Array.getElem?_eq_none (by omega)
      rw [Array.getElem?_append_right (by omega), outside, Array.getElem?_replicate]
      split <;> simp [zero]
  simp only [View.elementAt, View.address, Elements.get?, same]

theorem padded_alike (t : Tensor) (words : Array Single) (padded : PaddedWords t words) (z y x : Nat)
    (shape : paddedShape t.shape = [z, y, x]) :
    Value.Alike (.array ⟨.f32 words, ⟨x, y, z⟩⟩) (.array (View.ofTensor ⟨t.shape, .f32 t.singles⟩)) := by
  obtain ⟨n, rfl⟩ := padded
  apply Value.Alike.array
  intro indices
  have same := padded_elementAt t.singles n ⟨x, y, z⟩
  simp only [View.ofTensor, shape, List.getD_cons_zero, List.getD_cons_succ]
  unfold View.load
  split <;> simp only [same]

-- The device deals out scalars, shapes and arrays to the parameters the host took them
-- from. Words behind the last one used are ignored.
theorem bindWords_alike (types : List ValueType) (args : List Arg) (fits : FittingArgs types args)
    (position : Nat) (inputs : List (Array Single)) (scalars : List Single) (shapes : List Nat)
    (padded : List.Forall₂ PaddedWords (args.filterMap Arg.tensor?) inputs) :
    ∃ values hosts,
      bindWords types (args.filterMap Arg.word? ++ scalars)
        ((args.filterMap Arg.tensor?).flatMap (fun t => paddedShape t.shape) ++ shapes) inputs = .ok values ∧
      Value.bindFrom position types (args.map Arg.rounded) = .ok hosts ∧ AlikeArgs values hosts := by
  induction fits generalizing position inputs with
  | nil => exact ⟨[], [], by simp [bindWords], by simp [Value.bindFrom], .nil⟩
  | cons head _ ih =>
    cases head with
    | float v =>
      obtain ⟨values, hosts, dealt, bound, alike⟩ := ih (position + 1) inputs (by simpa [List.filterMap_cons, Arg.tensor?] using padded)
      refine ⟨.scalar (Single.ofFloat v).toFloat :: values, .scalar (Single.ofFloat v).toFloat :: hosts, ?_, ?_,
        .cons (.scalar _) alike⟩
      · simp [List.filterMap_cons, Arg.word?, Arg.tensor?, bindWords, dealt, bind, Except.bind]
      · simp [Arg.rounded, Value.bindFrom, Value.bind, bound, bind, Except.bind]
    | int v =>
      obtain ⟨values, hosts, dealt, bound, alike⟩ := ih (position + 1) inputs (by simpa [List.filterMap_cons, Arg.tensor?] using padded)
      refine ⟨.scalar (Whole.trunc (Single.ofFloat v).toFloat) :: values,
        .scalar (Whole.trunc (Single.ofFloat v).toFloat) :: hosts, ?_, ?_, .cons (.scalar _) alike⟩
      · simp [List.filterMap_cons, Arg.word?, Arg.tensor?, bindWords, dealt, bind, Except.bind]
      · simp [Arg.rounded, Value.bindFrom, Value.bind, bound, bind, Except.bind]
    | array t filled =>
      simp only [List.filterMap_cons, Arg.tensor?] at padded
      cases padded with
      | @cons _ words _ inputs first rest =>
        obtain ⟨values, hosts, dealt, bound, alike⟩ := ih (position + 1) inputs rest
        obtain ⟨z, y, x, shape⟩ := paddedShape_three t.shape
        refine ⟨.array ⟨.f32 words, ⟨x, y, z⟩⟩ :: values,
          .array (View.ofTensor ⟨t.shape, .f32 t.singles⟩) :: hosts, ?_, ?_,
          .cons (padded_alike t words first z y x shape) alike⟩
        · simp [List.filterMap_cons, Arg.word?, Arg.tensor?, shape, bindWords, dealt, bind, Except.bind]
        · simp [Arg.rounded, Value.bindFrom, Value.bind, bound, bind, Except.bind]

end GridKernel
