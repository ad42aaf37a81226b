import GridKernel.Proofs.Number.Shortest
import GridKernel.Proofs.Shader.Tokens

namespace GridKernel.Shader

-- A text that is one number, of the given value, wherever no name goes on with it.
def Denotes (text : String) (value : ℚ) : Prop :=
  ∃ read : Decimal, read.value = value ∧ (∃ c cs, text.toList = c :: cs ∧ c.isDigit = true) ∧
    ∀ rest, Cut inName rest → Yields text.toList [.number read] rest

theorem denotes_pointed (whole fraction : List Char) (digits : ∀ c ∈ whole ++ fraction, c.isDigit = true)
    (some : whole ≠ []) {text : String} (spelled : text.toList = whole ++ '.' :: fraction) {value : ℚ}
    (same : Nat.ofDigitChars 10 (whole ++ fraction) 0 * 10 ^ (-fraction.length : ℤ) = value) : Denotes text value := by
  have wholes : ∀ c ∈ whole, c.isDigit = true := fun c member => digits c (List.mem_append_left _ member)
  have fractions : ∀ c ∈ fraction, c.isDigit = true := fun c member => digits c (List.mem_append_right _ member)
  refine ⟨⟨Nat.ofDigitChars 10 (whole ++ fraction) 0, -fraction.length⟩, same, ?_, ?_⟩
  · rw [spelled]
    obtain ⟨c, cs, rfl⟩ := List.exists_cons_of_ne_nil some
    exact ⟨c, cs ++ '.' :: fraction, rfl, wholes c List.mem_cons_self⟩
  · intro rest stops
    rw [spelled]
    apply yields_number wholes some
    · simp
    · exact number?_pointed (fixedPoint_pointed wholes fractions stops.digit) stops

theorem denotes_positional {d : Decimal} (whole : 0 ≤ d.exponent) : Denotes (d.positional ++ ".0") d.value := by
  have spelled : (d.positional ++ ".0").toList =
      (Nat.toDigits 10 d.digits ++ List.replicate d.exponent.toNat '0') ++ '.' :: ['0'] := by
    unfold Decimal.positional
    rw [if_pos whole, String.toList_append, String.toList_append, toList_toString, Decimal.zeros, String.toList_ofList]
    rfl
  have number : Nat.ofDigitChars 10 ((Nat.toDigits 10 d.digits ++ List.replicate d.exponent.toNat '0') ++ ['0']) 0 =
      10 * (10 ^ d.exponent.toNat * d.digits) := by
    rw [Nat.ofDigitChars_append, Nat.ofDigitChars_append, Nat.ofDigitChars_ten_toDigits, Nat.ofDigitChars_replicate_zero]
    rfl
  refine denotes_pointed _ _ ?_ ?_ spelled ?_
  · intro c member
    simp only [List.mem_append, List.mem_replicate, List.mem_singleton] at member
    rcases member with (digit | ⟨_, rfl⟩) | rfl
    · exact toDigits_isDigit _ c digit
    · rfl
    · rfl
  · simp [Nat.toDigits_ne_nil]
  · obtain ⟨power, same⟩ := Int.eq_ofNat_of_zero_le whole
    rw [number, Decimal.value, same]
    simp
    ring

theorem denotes_places {d : Decimal} (small : d.exponent < 0) : Denotes d.positional d.value := by
  obtain ⟨whole, fraction, spelled, digits, some, length, number⟩ := pointed_parts d.digits (-d.exponent).toNat
  have text : d.positional = Decimal.pointed d.digits (-d.exponent).toNat := by
    unfold Decimal.positional
    rw [if_neg (by omega)]
  rw [text]
  refine denotes_pointed whole fraction digits some spelled ?_
  rw [number, length, Decimal.value]
  congr 2
  omega

theorem denotes_scaled {text : String} {whole tail : List Char} {n : Int}
    (spelled : text.toList = whole ++ (tail ++ 'e' :: (toString n).toList)) (digits : ∀ c ∈ whole, c.isDigit = true)
    (some : whole ≠ []) (plain : tail.head? ≠ .some 'x') {d : Decimal} {pointed : Bool}
    (read : ∀ more, fixedPoint (whole ++ (tail ++ 'e' :: more)) = ((d, pointed), 'e' :: more)) :
    Denotes text (Decimal.value ⟨d.digits, d.exponent + n⟩) := by
  refine ⟨_, rfl, ?_, ?_⟩
  · rw [spelled]
    obtain ⟨c, cs, rfl⟩ := List.exists_cons_of_ne_nil some
    exact ⟨c, _, rfl, digits c List.mem_cons_self⟩
  · intro rest stops
    rw [spelled]
    apply yields_number digits some
    · cases tail with
      | nil => simp
      | cons c tail => exact plain
    · rw [List.append_assoc, List.cons_append]
      exact number?_scaled (read _) (power?_toString n stops.digit) stops

theorem denotes_scientific (d : Decimal) : Denotes d.scientific d.value := by
  unfold Decimal.scientific Decimal.digitCount
  dsimp only
  obtain ⟨n, power⟩ : ∃ n, n = d.exponent + ((Nat.toDigits 10 d.digits).length - 1 : Nat) := ⟨_, rfl⟩
  rw [← power]
  split
  · rename_i one
    have spelled : (toString d.digits ++ "e" ++ toString n).toList =
        Nat.toDigits 10 d.digits ++ ([] ++ 'e' :: (toString n).toList) := by
      rw [String.toList_append, String.toList_append, toList_toString, List.append_assoc]
      rfl
    have denoted := denotes_scaled spelled (toDigits_isDigit d.digits) Nat.toDigits_ne_nil (by simp)
      fun more => fixedPoint_whole (toDigits_isDigit d.digits) (.cons rfl _) (by simp)
    rw [one] at power
    simpa [Nat.ofDigitChars_ten_toDigits, power] using denoted
  · obtain ⟨whole, fraction, split, digits, some, length, number⟩ :=
      pointed_parts d.digits ((Nat.toDigits 10 d.digits).length - 1)
    have wholes : ∀ c ∈ whole, c.isDigit = true := fun c member => digits c (List.mem_append_left _ member)
    have fractions : ∀ c ∈ fraction, c.isDigit = true := fun c member => digits c (List.mem_append_right _ member)
    have spelled : (Decimal.pointed d.digits ((Nat.toDigits 10 d.digits).length - 1) ++ "e" ++ toString n).toList =
        whole ++ ('.' :: fraction ++ 'e' :: (toString n).toList) := by
      rw [String.toList_append, String.toList_append, split, List.append_assoc, List.append_assoc]
      rfl
    have mantissa (more : List Char) : fixedPoint (whole ++ ('.' :: fraction ++ 'e' :: more)) =
        ((⟨d.digits, -fraction.length⟩, true), 'e' :: more) := by
      have stops : Cut Char.isDigit ('e' :: more) := .cons rfl _
      rw [List.cons_append, fixedPoint_pointed wholes fractions stops, number]
    have denoted := denotes_scaled spelled wholes some (by simp) mantissa
    rw [length] at denoted
    simpa [power] using denoted

theorem literal_parts {w : Single} (finite : w.isFinite = true) :
    ∃ text x, w.literal = (if w.bits.toNat.testBit 31 then "-" else "") ++ text ∧ Denotes text x ∧
      w.unsigned.IsNearest x := by
  have bound := Single.unsigned_finite finite
  unfold Single.literal Single.styled
  rw [Single.decode_finite finite]
  dsimp only
  by_cases zero : Single.mantissa w.unsigned.bits.toNat = 0
  · rw [if_pos zero]
    have none : w.unsigned = ⟨0⟩ := by
      have bits : w.unsigned.bits.toNat = 0 := by
        unfold Single.mantissa at zero
        split at zero <;> omega
      exact congrArg Single.mk (UInt32.toNat_inj.mp bits)
    have digits : Nat.ofDigitChars 10 (['0'] ++ ['0']) 0 = 0 := rfl
    rw [none]
    refine ⟨"0.0", 0, rfl, ?_, Single.isNearest_zero⟩
    exact denotes_pointed ['0'] ['0'] (by simp) (by simp) rfl (by rw [digits, Nat.cast_zero, zero_mul])
  · rw [if_neg zero]
    have nearest := Single.shortest_isNearest bound (Nat.pos_of_ne_zero zero)
    generalize Decimal.shortest (Single.mantissa w.unsigned.bits.toNat) (Single.place w.unsigned.bits.toNat) = d at nearest ⊢
    refine ⟨_, _, rfl, ?_, nearest⟩
    split
    · exact denotes_scientific d
    · split
      · rename_i whole
        exact denotes_positional whole
      · rename_i small
        exact denotes_places (lt_of_not_ge small)

theorem hexDigit?_digitChar : ∀ n < 16, Text.hexDigit? n.digitChar = some n := by decide

theorem toDigits_isHex (n : Nat) : ∀ c ∈ Nat.toDigits 16 n, isHex c = true := by
  induction n using Nat.strong_induction_on with
  | _ n ih =>
    intro c member
    rw [Nat.toDigits_eq_if (by decide)] at member
    split at member
    · rename_i small
      rw [List.mem_singleton.mp member, isHex, hexDigit?_digitChar n small]
      rfl
    · rcases List.mem_append.mp member with front | last
      · exact ih (n / 16) (by omega) c front
      · rw [List.mem_singleton.mp last, isHex, hexDigit?_digitChar _ (Nat.mod_lt _ (by decide))]
        rfl

theorem hexValue?_append (cs : List Char) (c : Char) :
    Text.hexValue? (cs ++ [c]) = (Text.hexValue? cs).bind fun n => (Text.hexDigit? c).map (n * 16 + ·) := by
  unfold Text.hexValue?
  rw [List.foldl_append]
  rfl

theorem hexValue?_toDigits (n : Nat) : Text.hexValue? (Nat.toDigits 16 n) = some n := by
  induction n using Nat.strong_induction_on with
  | _ n ih =>
    rw [Nat.toDigits_eq_if (by decide)]
    split
    · rename_i small
      rw [← List.nil_append [n.digitChar], hexValue?_append, hexDigit?_digitChar n small]
      simp [Text.hexValue?]
    · rw [hexValue?_append, ih (n / 16) (by omega), hexDigit?_digitChar _ (Nat.mod_lt _ (by decide))]
      exact congrArg some (Nat.div_add_mod' n 16)

theorem hexValue?_zeros (zeros : Nat) (cs : List Char) :
    Text.hexValue? (List.replicate zeros '0' ++ cs) = Text.hexValue? cs := by
  induction zeros with
  | zero => rfl
  | succ zeros ih => exact ih

theorem yields_bits {n : Nat} (word : n < 0x100000000) {rest : List Char} (stops : Cut inName rest) :
    Yields ("0x" ++ Text.hex 8 n ++ "u").toList [.bits n] rest := by
  obtain ⟨hex, spelled⟩ : ∃ hex, (Text.hex 8 n).toList = hex := ⟨_, rfl⟩
  have digits : ∀ c ∈ hex, isHex c = true := by
    intro c member
    rw [← spelled, Text.hex, String.toList_ofList, List.mem_append] at member
    rcases member with zero | digit
    · rw [List.eq_of_mem_replicate zero]
      rfl
    · exact toDigits_isHex n c digit
  have value : Text.hexValue? hex = some n := by
    rw [← spelled, Text.hex, String.toList_ofList, hexValue?_zeros, hexValue?_toDigits]
  have suffix : Cut isHex ('u' :: rest) := .cons rfl _
  obtain ⟨front, back⟩ := takeWhile_stops digits suffix
  have text : ("0x" ++ Text.hex 8 n ++ "u").toList = '0' :: 'x' :: (hex ++ ['u']) := by
    rw [String.toList_append, String.toList_append, spelled]
    rfl
  rw [text]
  apply Yields.token rfl
  unfold token?
  rw [if_neg (by decide), if_pos ⟨rfl, rfl⟩]
  change (bits? ((hex ++ ['u']) ++ rest)).map _ = _
  rw [List.append_assoc, List.singleton_append]
  unfold bits?
  rw [front, back]
  simp only [value, stops.any, word]
  rfl

end GridKernel.Shader
