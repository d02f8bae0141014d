/-
Numbers in fixed notation: signed whole numbers, and binary floating-point
numbers with the six decimals of the conversion `%f`.
-/
import Trifecta.Library.CText

namespace FixedText

open CText

abbrev minusSign : UInt8 := 45
abbrev point : UInt8 := 46

/-- `%d`. -/
def signedDecimal (value : Int) : List UInt8 :=
  if value < 0 then minusSign :: decimal value.natAbs else decimal value.natAbs

/-- `%f` of a whole number. -/
def wholeText (value : Int) : List UInt8 :=
  signedDecimal value ++ point :: List.replicate 6 48

/-- `numerator / denominator` rounded to a whole number, a half to the even one. -/
def roundHalfEven (numerator denominator : Nat) : Nat :=
  let quotient := numerator / denominator
  let twice := 2 * (numerator % denominator)
  if twice < denominator ∨ twice = denominator ∧ quotient % 2 = 0 then quotient else quotient + 1

/-- The millionths in `mantissa * 2 ^ (exponent - bias)`. -/
def millionths (mantissa exponent bias : Nat) : Nat :=
  if bias ≤ exponent then mantissa * 2 ^ (exponent - bias) * 10 ^ 6
  else roundHalfEven (mantissa * 10 ^ 6) (2 ^ (bias - exponent))

def sixDecimals (count : Nat) : List UInt8 :=
  let decimals := decimal (count % 10 ^ 6)
  decimal (count / 10 ^ 6) ++ point :: (List.replicate (6 - decimals.length) 48 ++ decimals)

/-- `%f` of a binary number of one sign bit, `exponentBits` and `fractionBits`. -/
def fixedText (exponentBits fractionBits bits : Nat) : List UInt8 :=
  let fraction := bits % 2 ^ fractionBits
  let exponent := bits / 2 ^ fractionBits % 2 ^ exponentBits
  let sign := if bits / 2 ^ (fractionBits + exponentBits) % 2 = 1 then [minusSign] else []
  if exponent = 2 ^ exponentBits - 1 then
    -- "inf" and "nan"
    sign ++ if fraction = 0 then [105, 110, 102] else [110, 97, 110]
  else
    -- a subnormal number has the smallest exponent and no leading one
    let mantissa := if exponent = 0 then fraction else 2 ^ fractionBits + fraction
    let bias := 2 ^ (exponentBits - 1) - 1 + fractionBits
    sign ++ sixDecimals (millionths mantissa (max exponent 1) bias)

/-- The largest and the smallest `float`, and minus one third. -/
example :
    fixedText 8 23 0x7F7FFFFF = signedDecimal 340282346638528859811704183484516925440 ++
        point :: List.replicate 6 48 ∧
      fixedText 8 23 1 = wholeText 0 ∧
      fixedText 8 23 0xBEAAAAAB = [45, 48, 46, 51, 51, 51, 51, 51, 51] := by
  decide +kernel

theorem decimal_injective {value other : Nat} (hsame : decimal value = decimal other) :
    value = other := by
  rw [← digitsValue_decimal value, hsame, digitsValue_decimal]

theorem minusSign_not_mem_decimal (value : Nat) : minusSign ∉ decimal value := by
  intro hmem
  exact absurd (isdigit_of_mem_decimal hmem) (by decide)

theorem signedDecimal_of_nonneg {value : Int} (hvalue : 0 ≤ value) :
    signedDecimal value = decimal value.natAbs := by
  rw [signedDecimal, if_neg (Int.not_lt.2 hvalue)]

theorem signedDecimal_of_neg {value : Int} (hvalue : value < 0) :
    signedDecimal value = minusSign :: decimal value.natAbs := by
  rw [signedDecimal, if_pos hvalue]

theorem signedDecimal_ne_nil (value : Int) : signedDecimal value ≠ [] := by
  rw [signedDecimal]
  split
  · exact List.cons_ne_nil _ _
  · exact decimal_ne_nil _

theorem signedDecimal_injective {value other : Int}
    (hsame : signedDecimal value = signedDecimal other) : value = other := by
  rcases Int.lt_or_le value 0 with hvalue | hvalue <;>
    rcases Int.lt_or_le other 0 with hother | hother
  · rw [signedDecimal_of_neg hvalue, signedDecimal_of_neg hother] at hsame
    have habs := decimal_injective (List.cons.inj hsame).2
    omega
  · rw [signedDecimal_of_neg hvalue, signedDecimal_of_nonneg hother] at hsame
    exact absurd (hsame ▸ List.mem_cons_self) (minusSign_not_mem_decimal _)
  · rw [signedDecimal_of_nonneg hvalue, signedDecimal_of_neg hother] at hsame
    exact absurd (hsame ▸ List.mem_cons_self) (minusSign_not_mem_decimal _)
  · rw [signedDecimal_of_nonneg hvalue, signedDecimal_of_nonneg hother] at hsame
    have habs := decimal_injective hsame
    omega

theorem wholeText_injective {value other : Int} (hsame : wholeText value = wholeText other) :
    value = other :=
  signedDecimal_injective (List.append_cancel_right hsame)

theorem length_decimal_le {value digits : Nat} (hdigits : 0 < digits)
    (hvalue : value < 10 ^ digits) : (decimal value).length ≤ digits := by
  rw [decimal, List.length_map]
  exact (Nat.length_toDigits_le_iff (by decide) hdigits).mpr hvalue

/-- A number of `digits` digits has room for its sign, the point and the decimals. -/
theorem length_wholeText_le {value : Int} {digits : Nat} (hdigits : 0 < digits)
    (hvalue : value.natAbs < 10 ^ digits) : (wholeText value).length ≤ digits + 8 := by
  have hlength := length_decimal_le hdigits hvalue
  rw [wholeText, List.length_append, List.length_cons, List.length_replicate, signedDecimal]
  split
  · rw [List.length_cons]
    omega
  · omega

/-- A byte that the conversions print. -/
def Printed (byte : UInt8) : Prop :=
  isdigit byte = true ∨ byte ∈ [minusSign, point, 105, 110, 102, 97]

theorem printed_of_mem_signedDecimal {value : Int} {byte : UInt8}
    (hbyte : byte ∈ signedDecimal value) : Printed byte := by
  rw [signedDecimal] at hbyte
  split at hbyte
  · rcases List.mem_cons.mp hbyte with rfl | hdigit
    · exact Or.inr (by simp)
    · exact Or.inl (isdigit_of_mem_decimal hdigit)
  · exact Or.inl (isdigit_of_mem_decimal hbyte)

theorem printed_of_mem_wholeText {value : Int} {byte : UInt8} (hbyte : byte ∈ wholeText value) :
    Printed byte := by
  rw [wholeText, List.mem_append, List.mem_cons, List.mem_replicate] at hbyte
  rcases hbyte with hwhole | rfl | ⟨_, rfl⟩
  · exact printed_of_mem_signedDecimal hwhole
  · exact Or.inr (by simp)
  · exact Or.inl rfl

theorem printed_of_mem_sixDecimals {count : Nat} {byte : UInt8} (hbyte : byte ∈ sixDecimals count) :
    Printed byte := by
  rw [sixDecimals, List.mem_append, List.mem_cons, List.mem_append, List.mem_replicate] at hbyte
  rcases hbyte with hwhole | rfl | ⟨_, rfl⟩ | hdecimal
  · exact Or.inl (isdigit_of_mem_decimal hwhole)
  · exact Or.inr (by simp)
  · exact Or.inl rfl
  · exact Or.inl (isdigit_of_mem_decimal hdecimal)

theorem printed_of_mem_fixedText {exponentBits fractionBits bits : Nat} {byte : UInt8}
    (hbyte : byte ∈ fixedText exponentBits fractionBits bits) : Printed byte := by
  have hsign : ∀ sign : List UInt8, sign = [minusSign] ∨ sign = [] → byte ∈ sign →
      Printed byte := by
    rintro sign (rfl | rfl) hmem
    · exact Or.inr (by simpa using Or.inl (List.mem_singleton.mp hmem))
    · exact absurd hmem List.not_mem_nil
  rw [fixedText] at hbyte
  dsimp only at hbyte
  split at hbyte <;> rw [List.mem_append] at hbyte
  · rcases hbyte with hminus | hname
    · exact hsign _ (by split <;> simp) hminus
    · right
      split at hname <;> simp only [List.mem_cons, List.not_mem_nil, or_false] at hname ⊢
      · rcases hname with rfl | rfl | rfl <;> simp
      · rcases hname with rfl | rfl | rfl <;> simp
  · rcases hbyte with hminus | hnumber
    · exact hsign _ (by split <;> simp) hminus
    · exact printed_of_mem_sixDecimals hnumber

/-! Any number of decimals. -/

/-- `mantissa * 2 ^ (exponent - bias)` in units of the last of `places` decimals. -/
def scaledUnits (places mantissa exponent bias : Nat) : Nat :=
  if bias ≤ exponent then mantissa * 2 ^ (exponent - bias) * 10 ^ places
  else roundHalfEven (mantissa * 10 ^ places) (2 ^ (bias - exponent))

def fixedDecimals (places count : Nat) : List UInt8 :=
  let decimals := decimal (count % 10 ^ places)
  decimal (count / 10 ^ places) ++
    point :: (List.replicate (places - decimals.length) 48 ++ decimals)

/-- `%.*f` of a binary number, with a number of decimals. -/
def fixedTextTo (places exponentBits fractionBits bits : Nat) : List UInt8 :=
  let fraction := bits % 2 ^ fractionBits
  let exponent := bits / 2 ^ fractionBits % 2 ^ exponentBits
  let sign := if bits / 2 ^ (fractionBits + exponentBits) % 2 = 1 then [minusSign] else []
  if exponent = 2 ^ exponentBits - 1 then
    sign ++ if fraction = 0 then [105, 110, 102] else [110, 97, 110]
  else
    let mantissa := if exponent = 0 then fraction else 2 ^ fractionBits + fraction
    let bias := 2 ^ (exponentBits - 1) - 1 + fractionBits
    sign ++ fixedDecimals places (scaledUnits places mantissa (max exponent 1) bias)

theorem printed_of_mem_fixedDecimals {places count : Nat} {byte : UInt8}
    (hbyte : byte ∈ fixedDecimals places count) : Printed byte := by
  rw [fixedDecimals, List.mem_append, List.mem_cons, List.mem_append, List.mem_replicate] at hbyte
  rcases hbyte with hwhole | rfl | ⟨_, rfl⟩ | hdecimal
  · exact Or.inl (isdigit_of_mem_decimal hwhole)
  · exact Or.inr (by simp)
  · exact Or.inl rfl
  · exact Or.inl (isdigit_of_mem_decimal hdecimal)

theorem printed_of_mem_fixedTextTo {places exponentBits fractionBits bits : Nat} {byte : UInt8}
    (hbyte : byte ∈ fixedTextTo places exponentBits fractionBits bits) : Printed byte := by
  have hsign : ∀ sign : List UInt8, sign = [minusSign] ∨ sign = [] → byte ∈ sign →
      Printed byte := by
    rintro sign (rfl | rfl) hmem
    · exact Or.inr (by simpa using Or.inl (List.mem_singleton.mp hmem))
    · exact absurd hmem List.not_mem_nil
  have hname : byte ∈ [105, 110, 102] ∨ byte ∈ [110, 97, 110] → Printed byte := by
    intro hmem
    simp only [List.mem_cons, List.not_mem_nil, or_false] at hmem
    rcases hmem with (rfl | rfl | rfl) | rfl | rfl | rfl <;> exact Or.inr (by simp)
  rw [fixedTextTo] at hbyte
  dsimp only at hbyte
  split at hbyte <;> rw [List.mem_append] at hbyte
  · rcases hbyte with hminus | hnamed
    · exact hsign _ (by split <;> simp) hminus
    · split at hnamed
      · exact hname (Or.inl hnamed)
      · exact hname (Or.inr hnamed)
  · rcases hbyte with hminus | hnumber
    · exact hsign _ (by split <;> simp) hminus
    · exact printed_of_mem_fixedDecimals hnumber

theorem roundHalfEven_le (numerator denominator : Nat) :
    roundHalfEven numerator denominator ≤ numerator + 1 := by
  have hle := Nat.div_le_self numerator denominator
  rw [roundHalfEven]
  split <;> omega

/-- The digits before the point spell a number of the range of the format. -/
theorem scaledUnits_div_lt {places mantissa exponent bias range : Nat}
    (hsmall : mantissa + 1 < range) (hscaled : mantissa * 2 ^ (exponent - bias) < range) :
    scaledUnits places mantissa exponent bias / 10 ^ places < range := by
  have hpos : 0 < 10 ^ places := Nat.pow_pos (by decide)
  rw [scaledUnits]
  split
  · rw [Nat.mul_div_cancel _ hpos]
    exact hscaled
  · have hround := roundHalfEven_le (mantissa * 10 ^ places) (2 ^ (bias - exponent))
    have hone : mantissa * 10 ^ places + 1 ≤ (mantissa + 1) * 10 ^ places := by
      rw [Nat.add_one_mul]
      exact Nat.add_le_add_left hpos _
    have hdiv := Nat.div_le_div_right (hround.trans hone) (c := 10 ^ places)
    rw [Nat.mul_div_cancel _ hpos] at hdiv
    exact Nat.lt_of_le_of_lt hdiv hsmall

theorem length_fixedDecimals_le {places count digits : Nat} (hplaces : 0 < places)
    (hdigits : 0 < digits) (hcount : count / 10 ^ places < 10 ^ digits) :
    (fixedDecimals places count).length ≤ digits + places + 1 := by
  have hwhole := length_decimal_le hdigits hcount
  have hdecimals := length_decimal_le hplaces
    (Nat.mod_lt count (Nat.pow_pos (by decide : 0 < 10)))
  simp only [fixedDecimals, List.length_append, List.length_cons, List.length_replicate]
  omega

/-- A format whose numbers stay below `10 ^ digits` prints at most that many digits, its
sign, the point and the decimals. -/
theorem length_fixedTextTo_le {places exponentBits fractionBits digits : Nat}
    (hplaces : 0 < places) (hdigits : 2 ≤ digits)
    (hfraction : fractionBits + 1 < 2 ^ (exponentBits - 1)) (hexponent : 0 < exponentBits)
    (hrange : 2 ^ 2 ^ (exponentBits - 1) ≤ 10 ^ digits) (bits : Nat) :
    (fixedTextTo places exponentBits fractionBits bits).length ≤ digits + places + 2 := by
  have hsign : ∀ sign : List UInt8, sign = [minusSign] ∨ sign = [] → sign.length ≤ 1 := by
    rintro sign (rfl | rfl) <;> decide
  have hexp : bits / 2 ^ fractionBits % 2 ^ exponentBits < 2 ^ exponentBits :=
    Nat.mod_lt _ (Nat.two_pow_pos _)
  have hfrac : bits % 2 ^ fractionBits < 2 ^ fractionBits := Nat.mod_lt _ (Nat.two_pow_pos _)
  have hdouble : 2 ^ exponentBits = 2 * 2 ^ (exponentBits - 1) := by
    obtain ⟨half, rfl⟩ := Nat.exists_eq_succ_of_ne_zero hexponent.ne'
    rw [Nat.succ_sub_one, Nat.pow_succ']
  rw [fixedTextTo]
  generalize bits / 2 ^ fractionBits % 2 ^ exponentBits = exponent at hexp ⊢
  generalize bits % 2 ^ fractionBits = fraction at hfrac ⊢
  dsimp only
  split <;> rw [List.length_append]
  · have hname : (if fraction = 0 then [105, 110, 102] else [110, 97, 110] : List UInt8).length =
        3 := by split <;> rfl
    have hone := hsign _ (by split <;> simp :
      (if bits / 2 ^ (fractionBits + exponentBits) % 2 = 1 then [minusSign] else []) =
        [minusSign] ∨ _ = [])
    rw [hname]
    omega
  · next hfinite =>
    have hone := hsign _ (by split <;> simp :
      (if bits / 2 ^ (fractionBits + exponentBits) % 2 = 1 then [minusSign] else []) =
        [minusSign] ∨ _ = [])
    have hmantissa : (if exponent = 0 then fraction else 2 ^ fractionBits + fraction) <
        2 ^ (fractionBits + 1) := by
      rw [Nat.pow_succ]
      split <;> omega
    generalize (if exponent = 0 then fraction else 2 ^ fractionBits + fraction) = mantissa
      at hmantissa ⊢
    have hsmall : mantissa + 1 < 10 ^ digits := by
      have hgrow := Nat.pow_lt_pow_right (a := 2) (by decide) hfraction
      omega
    have hscaled : mantissa * 2 ^ (max exponent 1 - (2 ^ (exponentBits - 1) - 1 + fractionBits)) <
        10 ^ digits := by
      refine Nat.lt_of_lt_of_le ?_ hrange
      have hshift : max exponent 1 - (2 ^ (exponentBits - 1) - 1 + fractionBits) +
          (fractionBits + 1) ≤ 2 ^ (exponentBits - 1) := by omega
      calc mantissa * 2 ^ (max exponent 1 - (2 ^ (exponentBits - 1) - 1 + fractionBits))
          < 2 ^ (fractionBits + 1) *
              2 ^ (max exponent 1 - (2 ^ (exponentBits - 1) - 1 + fractionBits)) :=
            Nat.mul_lt_mul_of_pos_right hmantissa (Nat.two_pow_pos _)
        _ = 2 ^ (max exponent 1 - (2 ^ (exponentBits - 1) - 1 + fractionBits) +
              (fractionBits + 1)) := by rw [← Nat.pow_add, Nat.add_comm]
        _ ≤ 2 ^ 2 ^ (exponentBits - 1) := Nat.pow_le_pow_right (by decide) hshift
    have hnumber := length_fixedDecimals_le hplaces (Nat.zero_lt_of_lt hdigits)
      (@scaledUnits_div_lt places mantissa _ _ _ hsmall hscaled)
    omega

end FixedText
