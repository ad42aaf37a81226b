import GridKernel.Proofs.Kernel.Readability
import GridKernel.Buffer.ByteOrder
import GridKernel.Tensor
import Mathlib.Algebra.Order.Ring.Nat

namespace GridKernel

def nameEnd : UInt8 := 0xff

namespace Token

def bytes (order : ByteOrder) : Token → List UInt8
  | .size n => (Bytes.ofWords order 8 #[n]).toList
  | .tag n => (Bytes.ofWords order 8 #[n]).toList
  | .bits b => (Bytes.ofWords order 8 #[b.toNat]).toList
  | .name s => s.toUTF8.data.toList ++ [nameEnd]

-- A size, like a tag, is a word.
def Fits : Token → Prop
  | .size n => n < sizeRange
  | .tag n => n < sizeRange
  | _ => True

instance : DecidablePred Fits
  | .size n => inferInstanceAs (Decidable (n < sizeRange))
  | .tag n => inferInstanceAs (Decidable (n < sizeRange))
  | .bits _ => inferInstanceAs (Decidable True)
  | .name _ => inferInstanceAs (Decidable True)

end Token

section Words

theorem eq_of_digits {b k m n : Nat} (left : m < b ^ k) (right : n < b ^ k)
    (digits : ∀ i < k, m / b ^ i % b = n / b ^ i % b) : m = n := by
  induction k generalizing m n with
  | zero =>
    rw [pow_zero] at left right
    omega
  | succ k ih =>
    have low := digits 0 (by omega)
    have high : m / b = n / b := by
      rw [pow_succ'] at left right
      refine ih (Nat.div_lt_of_lt_mul left) (Nat.div_lt_of_lt_mul right) ?_
      intro i inside
      have digit := digits (i + 1) (by omega)
      rwa [pow_succ', ← Nat.div_div_eq_div_mul, ← Nat.div_div_eq_div_mul] at digit
    rw [pow_zero, Nat.div_one, Nat.div_one] at low
    rw [← Nat.mod_add_div m b, ← Nat.mod_add_div n b, low, high]

theorem ByteOrder.place_place (order : ByteOrder) {width i : Nat} (inside : i < width) :
    order.place width (order.place width i) = i ∧ order.place width i < width := by
  unfold place
  split <;> omega

theorem Bytes.getD_ofWord (order : ByteOrder) {n i : Nat} (inside : i < 8) :
    (ofWords order 8 #[n]).getD i 0 = ((n >>> (8 * order.place 8 i)) % 256).toUInt8 := by
  simp [ofWords, Array.getD, inside, Nat.mod_eq_of_lt inside]

theorem Bytes.ofWord_readable {order : ByteOrder} {m n : Nat} {x y : List UInt8} (left : m < sizeRange) (right : n < sizeRange)
    (same : (ofWords order 8 #[m]).toList ++ x = (ofWords order 8 #[n]).toList ++ y) : m = n ∧ x = y := by
  obtain ⟨word, rest⟩ := List.append_inj same (by simp [ofWords])
  refine ⟨eq_of_digits (b := 256) (k := 8) left right fun i inside => ?_, rest⟩
  obtain ⟨back, place⟩ := order.place_place inside
  have byte := congrArg (fun bytes : Bytes => (bytes.getD (order.place 8 i) 0).toNat) (Array.toList_inj.mp word)
  simp only [getD_ofWord order place, back, Nat.shiftRight_eq_div_pow, pow_mul] at byte
  simpa using byte

end Words

section Names

theorem ended_readable {α : Type} {mark : α} {l m x y : List α} (left : mark ∉ l) (right : mark ∉ m)
    (same : l ++ mark :: x = m ++ mark :: y) : l = m ∧ x = y := by
  induction l generalizing m with
  | nil =>
    cases m with
    | nil => exact ⟨rfl, (List.cons.inj same).2⟩
    | cons a m => exact absurd (List.mem_cons.mpr (.inl (List.cons.inj same).1)) right
  | cons a l ih =>
    cases m with
    | nil => exact absurd (List.mem_cons.mpr (.inl (List.cons.inj same).1.symm)) left
    | cons b m =>
      obtain ⟨rfl, rest⟩ := List.cons.inj same
      obtain ⟨rfl, tail⟩ := ih (fun member => left (.tail _ member)) (fun member => right (.tail _ member)) rest
      exact ⟨rfl, tail⟩

theorem nameEnd_ne {n : Nat} (small : n < 255) : nameEnd ≠ UInt8.ofNat n := by
  intro same
  have value := congrArg UInt8.toNat same
  rw [UInt8.toNat_ofNat_of_lt' (small.trans (by decide)), nameEnd] at value
  exact absurd value.symm (Nat.ne_of_lt small)

-- The largest byte that starts a character is `0xf7`.
theorem nameEnd_notMem_char (c : Char) : nameEnd ∉ String.utf8EncodeChar c := by
  unfold String.utf8EncodeChar
  dsimp only
  split
  · simp only [List.mem_singleton]
    exact nameEnd_ne (by omega)
  · split
    · simp only [List.mem_cons, List.not_mem_nil, or_false, not_or]
      exact ⟨nameEnd_ne (by omega), nameEnd_ne (by omega)⟩
    · split
      · simp only [List.mem_cons, List.not_mem_nil, or_false, not_or]
        exact ⟨nameEnd_ne (by omega), nameEnd_ne (by omega), nameEnd_ne (by omega)⟩
      · simp only [List.mem_cons, List.not_mem_nil, or_false, not_or]
        exact ⟨nameEnd_ne (by omega), nameEnd_ne (by omega), nameEnd_ne (by omega), nameEnd_ne (by omega)⟩

theorem nameEnd_notMem (s : String) : nameEnd ∉ s.toUTF8.data.toList := by
  obtain ⟨chars, encoded⟩ := s.isValidUTF8
  rw [String.toUTF8_eq_toByteArray, encoded]
  simp [List.utf8Encode, nameEnd_notMem_char]

theorem name_readable {s t : String} {x y : List UInt8}
    (same : s.toUTF8.data.toList ++ [nameEnd] ++ x = t.toUTF8.data.toList ++ [nameEnd] ++ y) : s = t ∧ x = y := by
  simp only [List.append_assoc, List.singleton_append] at same
  obtain ⟨text, rest⟩ := ended_readable (nameEnd_notMem s) (nameEnd_notMem t) same
  exact ⟨String.toByteArray_inj.mp (ByteArray.ext (Array.toList_inj.mp text)), rest⟩

end Names

theorem Token.bytes_readable (order : ByteOrder) (s t : Token) (x y : List UInt8) (kind : s.ctorIdx = t.ctorIdx) (left : s.Fits)
    (right : t.Fits) (same : s.bytes order ++ x = t.bytes order ++ y) : s = t ∧ x = y := by
  cases s with
  | size m =>
    cases t <;> cases kind
    obtain ⟨rfl, rest⟩ := Bytes.ofWord_readable left right same
    exact ⟨rfl, rest⟩
  | tag m =>
    cases t <;> cases kind
    obtain ⟨rfl, rest⟩ := Bytes.ofWord_readable left right same
    exact ⟨rfl, rest⟩
  | bits a =>
    cases t <;> cases kind
    obtain ⟨word, rest⟩ := Bytes.ofWord_readable (UInt64.toNat_lt _) (UInt64.toNat_lt _) same
    exact ⟨congrArg Token.bits (UInt64.toNat_inj.mp word), rest⟩
  | name f =>
    cases t <;> cases kind
    obtain ⟨rfl, rest⟩ := name_readable same
    exact ⟨rfl, rest⟩

def Code.bytes (order : ByteOrder) : Code UInt8 := ⟨Token.bytes order, Token.Fits, Token.bytes_readable order⟩

namespace Body

def bytes (order : ByteOrder) (b : Body) : List UInt8 := (Code.bytes order).text b.stream

def Sized (b : Body) : Prop := ∀ t ∈ b.stream, t.Fits

instance (b : Body) : Decidable b.Sized := inferInstanceAs (Decidable (∀ t ∈ b.stream, t.Fits))

variable {a b : Body}

theorem SameUpToNames.stream_eq (same : a.SameUpToNames b) : a.stream = b.stream := by
  have typed (params : List Param) :
      params.flatMap Param.stream = (params.map (·.type)).flatMap fun type => Param.stream ⟨"", type⟩ := by
    rw [List.flatMap_map]
    rfl
  have length : a.params.length = b.params.length := by simpa using congrArg List.length same.types
  rw [stream, stream, typed, typed, length, same.types, same.locals, same.stmts]

-- In no code is a body written as the beginning of another.
theorem same_of_beginning {α : Type} {c : Code α} (left : c.Holds a.stream) (right : c.Holds b.stream)
    (begins : c.text a.stream <+: c.text b.stream) : a.SameUpToNames b := by
  obtain ⟨rest, same⟩ := begins
  have alike : c.Alike (a.stream ++ []) (b.stream ++ []) rest [] := by
    simp only [List.append_nil]
    exact ⟨left, right, by rw [same, List.append_nil]⟩
  exact (stream_readable a b [] [] alike).1

end Body

theorem Expr.eq_of_beginning {e f : Expr} (begins : e.stream <+: f.stream) : e = f := by
  obtain ⟨rest, same⟩ := begins
  exact (stream_readable e f [] [] (Code.alike_tokens.mpr (by simpa using same : _ ++ rest = _ ++ []))).1

theorem Stmt.eq_of_beginning {s t : Stmt} (begins : s.stream <+: t.stream) : s = t := by
  obtain ⟨rest, same⟩ := begins
  exact (stream_readable s t [] [] (Code.alike_tokens.mpr (by simpa using same : _ ++ rest = _ ++ []))).1

-- A stream, and no less its bytes, says which body it is but for the names of parameters, and none is the beginning of
-- another. Constants are patterns, so bodies that are equal have them bit for bit.
theorem Body.streams_identify_bodies (a b : Body) :
    (a.stream = b.stream ↔ a.SameUpToNames b) ∧
    (a.stream <+: b.stream → a.stream = b.stream) ∧
    (∀ e f : Expr, e.stream <+: f.stream → e = f) ∧
    (∀ s t : Stmt, s.stream <+: t.stream → s = t) ∧
    (a.Sized → b.Sized → ∀ order,
      (a.bytes order = b.bytes order ↔ a.SameUpToNames b) ∧
      (a.bytes order <+: b.bytes order → a.bytes order = b.bytes order)) := by
  refine ⟨⟨sameUpToNames_of_stream a b, fun same => same.stream_eq⟩, fun begins => ?_, fun _ _ => Expr.eq_of_beginning,
    fun _ _ => Stmt.eq_of_beginning, fun left right order => ⟨⟨fun same => ?_, fun same => ?_⟩, fun begins => ?_⟩⟩
  · rw [← Code.text_tokens a.stream, ← Code.text_tokens b.stream] at begins
    exact (same_of_beginning (fun _ _ => trivial) (fun _ _ => trivial) begins).stream_eq
  · exact same_of_beginning (c := Code.bytes order) left right ⟨[], by rw [List.append_nil]; exact same⟩
  · exact congrArg (Code.bytes order).text same.stream_eq
  · exact congrArg (Code.bytes order).text (same_of_beginning (c := Code.bytes order) left right begins).stream_eq

def scaling (name : String) (factor : Double) : Body :=
  ⟨[⟨name, some .floatArray⟩, ⟨"n", none⟩], 1,
    [.declare 0 (.index 0 [.thread .x]), .ret (.binary .mul (.var 0) (.const factor))]⟩

-- Under another name for its array the kernel is the same, with the other zero it is not.
theorem Body.scaling_known_by_its_bytes :
    (scaling "a" ⟨0⟩).Sized ∧ (scaling "input" ⟨0⟩).Sized ∧ (scaling "a" ⟨0x8000000000000000⟩).Sized ∧
      (scaling "a" ⟨0⟩).stream <+: (scaling "input" ⟨0⟩).stream ∧
      (scaling "a" ⟨0⟩).stream = (scaling "input" ⟨0⟩).stream ∧
      ∀ order, (scaling "a" ⟨0⟩).bytes order = (scaling "input" ⟨0⟩).bytes order ∧
        (scaling "a" ⟨0⟩).bytes order ≠ (scaling "a" ⟨0x8000000000000000⟩).bytes order := by
  have renamed : (scaling "a" ⟨0⟩).SameUpToNames (scaling "input" ⟨0⟩) := ⟨rfl, rfl, rfl⟩
  have sized : (scaling "a" ⟨0⟩).Sized := by decide
  have other : (scaling "input" ⟨0⟩).Sized := by decide
  have negative : (scaling "a" ⟨0x8000000000000000⟩).Sized := by decide
  have begins : (scaling "a" ⟨0⟩).stream <+: (scaling "input" ⟨0⟩).stream := ⟨[], rfl⟩
  obtain ⟨_, once, _, _, bytes⟩ := streams_identify_bodies (scaling "a" ⟨0⟩) (scaling "input" ⟨0⟩)
  obtain ⟨_, _, _, _, apart⟩ := streams_identify_bodies (scaling "a" ⟨0⟩) (scaling "a" ⟨0x8000000000000000⟩)
  refine ⟨sized, other, negative, begins, once begins, fun order => ⟨(bytes sized other order).1.mpr renamed, fun same => ?_⟩⟩
  have stmts := ((apart sized negative order).1.mp same).stmts
  cases stmts

end GridKernel
