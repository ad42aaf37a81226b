import GridKernel.Proofs.Buffer.RoundTrip
import Mathlib.Data.List.Forall2

namespace GridKernel

def Single.Alike (a b : Single) : Prop := a = b ∨ a.decode = .nan ∧ b.decode = .nan

def Double.Alike (a b : Double) : Prop := a = b ∨ a.decode = .nan ∧ b.decode = .nan

namespace Elements

inductive Alike : Elements → Elements → Prop where
  | f32 {a b : Array Single} (each : List.Forall₂ Single.Alike a.toList b.toList) : Alike (.f32 a) (.f32 b)
  | f64 {a b : Array Double} (each : List.Forall₂ Double.Alike a.toList b.toList) : Alike (.f64 a) (.f64 b)
  | i32 (data : Array Int32) : Alike (.i32 data) (.i32 data)
  | i64 (data : Array Int64) : Alike (.i64 data) (.i64 data)

end Elements

namespace Single

theorem Alike.trans {a b c : Single} (one : a.Alike b) (two : b.Alike c) : a.Alike c := by
  rcases one with rfl | ⟨first, second⟩
  · exact two
  · rcases two with rfl | ⟨_, third⟩
    · exact .inr ⟨first, second⟩
    · exact .inr ⟨first, third⟩

theorem Alike.toDouble {a b : Single} (alike : a.Alike b) : a.toDouble.Alike b.toDouble := by
  rcases alike with rfl | ⟨first, second⟩
  · exact .inl rfl
  · exact .inr ⟨toDouble_nan first, toDouble_nan second⟩

theorem alike_ofFloat (w : Single) : (ofFloat w.toFloat).Alike w := by
  by_cases nan : w.decode = .nan
  · exact .inr ⟨ofFloat_nan nan, nan⟩
  · exact .inl (ofFloat_toFloat nan)

theorem alike_toSingle (w : Single) : w.toDouble.toSingle.Alike w := by
  by_cases nan : w.decode = .nan
  · exact .inr ⟨Double.toSingle_nan (toDouble_nan nan), nan⟩
  · exact .inl (toSingle_toDouble nan)

-- An integer that is stored as one word on either way and rounds back to itself.
structure Settles (low high i : Int) : Prop where
  evaluated : ofFloat (Double.ofInt i).toFloat = ofInt i
  rounded : ofFloat (ofInt i).toFloat = ofInt i
  back : (ofInt i).roundClamped low high = i

theorem settles_held {low high i : Int} (holds : Format.single.Holds i.natAbs) (small : i.natAbs < 2 ^ 64)
    (least : low ≤ i) (most : i ≤ high) : Settles low high i :=
  ⟨ofFloat_ofInt holds small, ofFloat_toFloat (ofInt_number holds small), roundClamped_held holds small least most⟩

-- The upper end of a range is rounded up when it is stored, and clamped when it is read.
theorem settles_last {low high : Int} (double : (Double.ofInt high).decode ≠ .nan) (single : (ofInt high).decode ≠ .nan)
    (same : (Double.ofInt high).toSingle = ofInt high) (back : (ofInt high).roundClamped low high = high) :
    Settles low high high :=
  ⟨by rw [ofFloat, Double.ofFloat_toFloat double, same], ofFloat_toFloat single, back⟩

theorem settles_roundClamped (w : Single) {low high : Int} (last : Settles low high high)
    (lowest : Format.single.Holds low.natAbs) (below : low ≤ 0) (above : 0 ≤ high) (far : low.natAbs < 2 ^ 64)
    (near : high.natAbs < 2 ^ 64) : Settles low high (w.roundClamped low high) := by
  obtain ⟨held | top, least, most⟩ := w.roundClamped_cases low high lowest below above
  · exact settles_held held (by omega) least most
  · rw [top]
    exact last

theorem settles_i32 (w : Single) : Settles (-2147483648) 2147483647 (w.roundClamped (-2147483648) 2147483647) :=
  w.settles_roundClamped (settles_last (by decide) (by decide) (by decide) (by decide))
    ⟨1, 31, by decide, by decide⟩ (by decide) (by decide) (by decide) (by decide)

theorem settles_i64 (w : Single) : Settles (-9223372036854775808) 9223372036854775807
    (w.roundClamped (-9223372036854775808) 9223372036854775807) :=
  w.settles_roundClamped (settles_last (by decide) (by decide) (by decide) (by decide))
    ⟨1, 63, by decide, by decide⟩ (by decide) (by decide) (by decide) (by decide)

theorem toInt_i32 (w : Single) : (Int32.ofInt (w.roundClamped (-2147483648) 2147483647)).toInt =
    w.roundClamped (-2147483648) 2147483647 := by
  obtain ⟨_, least, most⟩ := w.roundClamped_cases (-2147483648) 2147483647
    ⟨1, 31, by decide, by decide⟩ (by decide) (by decide)
  exact Int32.toInt_ofInt_of_le least (by omega)

theorem toInt_i64 (w : Single) : (Int64.ofInt (w.roundClamped (-9223372036854775808) 9223372036854775807)).toInt =
    w.roundClamped (-9223372036854775808) 9223372036854775807 := by
  obtain ⟨_, least, most⟩ := w.roundClamped_cases (-9223372036854775808) 9223372036854775807
    ⟨1, 63, by decide, by decide⟩ (by decide) (by decide)
  exact Int64.toInt_ofInt_of_le least (by omega)

end Single

namespace Elements

-- Words that are stored again as words which stand for like elements.
theorem forall₂_again {α : Type} {R : α → α → Prop} (words out : Array Single) (store : Single → Single)
    (stored : ∀ i : Nat, out[i]? = words[i]?.map store) (back : Single → α) (each : ∀ w, R (back (store w)) (back w)) :
    List.Forall₂ R (out.map back).toList (words.map back).toList := by
  obtain rfl : out = words.map store := Array.ext_getElem? fun i => by rw [stored, Array.getElem?_map]
  simp only [Array.toList_map, List.forall₂_map_left_iff, List.forall₂_map_right_iff, List.forall₂_same]
  intro w _
  exact each w

theorem map_again {α : Type} (words out : Array Single) {low high : Int}
    (settles : ∀ w : Single, Single.Settles low high (w.roundClamped low high))
    (stored : ∀ i : Nat, out[i]? = words[i]?.map fun w => Single.ofInt (w.roundClamped low high)) (back : Int → α) :
    out.map (fun w => back (w.roundClamped low high)) = words.map fun w => back (w.roundClamped low high) := by
  obtain rfl : out = words.map fun w => Single.ofInt (w.roundClamped low high) :=
    Array.ext_getElem? fun i => by rw [stored, Array.getElem?_map]
  rw [Array.map_map]
  exact congrArg (words.map ·) (funext fun w => congrArg back (settles w).back)

variable (type : ElementType) (words out : Array Single)

theorem alike_i32 (stored : ∀ i : Nat, out[i]? = words[i]?.map fun w =>
    Single.ofInt (w.roundClamped (-2147483648) 2147483647)) : (ofSingles .i32 out).Alike (ofSingles .i32 words) := by
  simp only [ofSingles, map_again words out Single.settles_i32 stored Int32.ofInt]
  exact .i32 _

theorem alike_i64 (stored : ∀ i : Nat, out[i]? = words[i]?.map fun w =>
    Single.ofInt (w.roundClamped (-9223372036854775808) 9223372036854775807)) :
    (ofSingles .i64 out).Alike (ofSingles .i64 words) := by
  simp only [ofSingles, map_again words out Single.settles_i64 stored Int64.ofInt]
  exact .i64 _

theorem alike_evaluated (stored : ∀ i : Nat, out[i]? = ((ofSingles type words).get? i).map Single.ofFloat) :
    (ofSingles type out).Alike (ofSingles type words) := by
  cases type with
  | f32 =>
    have again := forall₂_again (R := Single.Alike) words out (fun w => Single.ofFloat w.toFloat)
      (fun i => by simp only [stored, ofSingles, get?, Option.map_map, Function.comp_def]) id Single.alike_ofFloat
    rw [Array.map_id, Array.map_id] at again
    exact .f32 again
  | f64 =>
    refine .f64 (forall₂_again words out (fun w => Single.ofFloat w.toFloat) (fun i => ?_) Single.toDouble
      fun w => (Single.alike_ofFloat w).toDouble)
    simp only [stored, ofSingles, get?, Array.getElem?_map, Option.map_map, Function.comp_def, Single.toFloat]
  | i32 =>
    refine alike_i32 words out fun i => ?_
    simp only [stored, ofSingles, get?, Array.getElem?_map, Option.map_map, Function.comp_def, Single.toInt_i32,
      (Single.settles_i32 _).evaluated]
  | i64 =>
    refine alike_i64 words out fun i => ?_
    simp only [stored, ofSingles, get?, Array.getElem?_map, Option.map_map, Function.comp_def, Single.toInt_i64,
      (Single.settles_i64 _).evaluated]

theorem alike_rounded
    (stored : ∀ i : Nat, out[i]? = ((Elements.f32 (ofSingles type words).singles).get? i).map Single.ofFloat) :
    (ofSingles type out).Alike (ofSingles type words) := by
  cases type with
  | f32 => exact alike_evaluated .f32 words out stored
  | f64 =>
    refine .f64 (forall₂_again words out (fun w => Single.ofFloat w.toDouble.toSingle.toFloat) (fun i => ?_) Single.toDouble
      fun w => ((Single.alike_ofFloat _).trans (Single.alike_toSingle w)).toDouble)
    simp only [stored, ofSingles, singles, get?, Array.getElem?_map, Option.map_map, Function.comp_def]
  | i32 =>
    refine alike_i32 words out fun i => ?_
    simp only [stored, ofSingles, singles, get?, Array.getElem?_map, Option.map_map, Function.comp_def, Single.toInt_i32,
      (Single.settles_i32 _).rounded]
  | i64 =>
    refine alike_i64 words out fun i => ?_
    simp only [stored, ofSingles, singles, get?, Array.getElem?_map, Option.map_map, Function.comp_def, Single.toInt_i64,
      (Single.settles_i64 _).rounded]

end Elements

end GridKernel
