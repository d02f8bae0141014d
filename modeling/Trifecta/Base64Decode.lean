/-
What decoding a Base64 string comes to.  The leading characters of the alphabet
decide everything: they are the whole string and fill their last group, or the
next character is padding and the loop never ends, or decoding fails.
-/
import Trifecta.Base64

namespace Trifecta

open CText

theorem sizeSub_zero (a : Nat) : sizeSub a 0 = a := by
  simp [sizeSub]

/-- Taking two or less away makes a number smaller by two at most. -/
theorem le_sizeSub_add (a : Nat) {b : Nat} (hb : b ≤ 2) : a ≤ sizeSub a b + 2 := by
  unfold sizeSub
  split <;> omega

theorem storeBytes_eq_take {bufferSize : Nat} {written : List UInt8}
    (hwritten : written.length ≤ bufferSize) (bytes : List UInt8) :
    storeBytes bufferSize written bytes = (written ++ bytes).take bufferSize := by
  induction bytes generalizing written with
  | nil =>
      rw [List.append_nil, List.take_of_length_le hwritten]
      rfl
  | cons byte rest ih =>
      change storeBytes bufferSize
        (if written.length < bufferSize then written ++ [byte] else written) rest = _
      by_cases hroom : written.length < bufferSize
      · rw [if_pos hroom, ih (by rw [List.length_append]; exact hroom), List.append_assoc,
          List.singleton_append]
      · have hfull : written.length = bufferSize := by omega
        rw [if_neg hroom, ih hwritten, ← hfull, List.take_left, List.take_left]

theorem storeBytes_append (bufferSize : Nat) (written first second : List UInt8) :
    storeBytes bufferSize written (first ++ second) =
      storeBytes bufferSize (storeBytes bufferSize written first) second := by
  simp [storeBytes]

theorem isBase64_zero : isBase64 0 = false := by decide

theorem isBase64_padChar : isBase64 padChar = false := by decide

theorem nextSextet_of_isBase64 {input : List UInt8} {i : Nat}
    (hbase64 : isBase64 (input[i]?.getD 0) = true) :
    nextSextet input i = (some ((base64CharToValue (input[i]?.getD 0)).getD 0), i + 1) := by
  have hpad : input[i]?.getD 0 ≠ padChar := by
    intro heq
    rw [heq, isBase64_padChar] at hbase64
    exact absurd hbase64 (by decide)
  obtain ⟨value, hvalue⟩ := Option.isSome_iff_exists.1 hbase64
  simp only [nextSextet, if_neg hpad, hvalue, Option.getD_some]

theorem nextSextet_of_pad {input : List UInt8} {i : Nat}
    (hpad : input[i]?.getD 0 = padChar) : nextSextet input i = (some 0, i) := by
  rw [nextSextet, if_pos hpad]

theorem nextSextet_of_invalid {input : List UInt8} {i : Nat}
    (hbase64 : isBase64 (input[i]?.getD 0) = false)
    (hpad : input[i]?.getD 0 ≠ padChar) : nextSextet input i = (none, i + 1) := by
  have hnone : base64CharToValue (input[i]?.getD 0) = none := by
    simpa [isBase64] using hbase64
  rw [nextSextet, if_neg hpad, hnone]

section Loop

variable {input : List UInt8} {inputLength bufferSize padding i : Nat}

theorem nextSextet_of_lead {k : Nat}
    (hlead : ∀ j < k, isBase64 (input[i + j]?.getD 0) = true) (j : Nat) (hj : j < k) :
    nextSextet input (i + j) =
      (some ((base64CharToValue (input[i + j]?.getD 0)).getD 0), i + (j + 1)) :=
  nextSextet_of_isBase64 (hlead j hj)

/-- A round on four characters of the alphabet stores their bytes. -/
theorem decodeLoop_quad (hi : i < inputLength)
    (hlead : ∀ k < 4, isBase64 (input[i + k]?.getD 0) = true) (fuel : Nat)
    (written : List UInt8) (decodedLength : Nat) :
    decodeLoop input inputLength bufferSize padding (fuel + 1) i written decodedLength =
      decodeLoop input inputLength bufferSize padding fuel (i + 4)
        (storeBytes bufferSize written
          (tripleBytes ((base64CharToValue (input[i]?.getD 0)).getD 0)
            ((base64CharToValue (input[i + 1]?.getD 0)).getD 0)
            ((base64CharToValue (input[i + 2]?.getD 0)).getD 0)
            ((base64CharToValue (input[i + 3]?.getD 0)).getD 0)))
        (decodedLength + 3) := by
  have h0 := nextSextet_of_lead hlead 0 (by decide)
  have h1 := nextSextet_of_lead hlead 1 (by decide)
  have h2 := nextSextet_of_lead hlead 2 (by decide)
  have h3 := nextSextet_of_lead hlead 3 (by decide)
  simp only [Nat.add_zero, Nat.zero_add, Nat.reduceAdd] at h0 h1 h2 h3
  rw [decodeLoop, if_pos hi]
  simp only [h0, h1, h2, h3]

/-- A round that begins at a padding character changes nothing but the
output. -/
theorem decodeLoop_of_pad (hi : i < inputLength) (hpad : input[i]?.getD 0 = padChar)
    (fuel : Nat) (written : List UInt8) (decodedLength : Nat) :
    decodeLoop input inputLength bufferSize padding fuel i written decodedLength = none := by
  induction fuel generalizing written decodedLength with
  | zero => rfl
  | succ fuel ih =>
      rw [decodeLoop, if_pos hi]
      simp only [nextSextet_of_pad hpad]
      exact ih _ _

/-- A padding character inside a round is where all later rounds begin. -/
theorem decodeLoop_of_inner_pad {k : Nat} (hk : k < 4) (hi : i + k < inputLength)
    (hlead : ∀ j < k, isBase64 (input[i + j]?.getD 0) = true)
    (hpad : input[i + k]?.getD 0 = padChar) (fuel : Nat) (written : List UInt8)
    (decodedLength : Nat) :
    decodeLoop input inputLength bufferSize padding fuel i written decodedLength = none := by
  cases fuel with
  | zero => rfl
  | succ fuel =>
      have hnext := nextSextet_of_pad hpad
      have hsextet := nextSextet_of_lead hlead
      rw [decodeLoop, if_pos (by omega)]
      interval_cases k
      · simp only [Nat.add_zero] at hnext
        simp only [hnext]
        exact decodeLoop_of_pad hi hpad _ _ _
      · have h0 := hsextet 0 (by decide)
        simp only [Nat.add_zero, Nat.zero_add] at h0
        simp only [h0, hnext]
        exact decodeLoop_of_pad hi hpad _ _ _
      · have h0 := hsextet 0 (by decide)
        have h1 := hsextet 1 (by decide)
        simp only [Nat.add_zero, Nat.zero_add, Nat.reduceAdd] at h0 h1
        simp only [h0, h1, hnext]
        exact decodeLoop_of_pad hi hpad _ _ _
      · have h0 := hsextet 0 (by decide)
        have h1 := hsextet 1 (by decide)
        have h2 := hsextet 2 (by decide)
        simp only [Nat.add_zero, Nat.zero_add, Nat.reduceAdd] at h0 h1 h2
        simp only [h0, h1, h2, hnext]
        exact decodeLoop_of_pad hi hpad _ _ _

/-- Any other character inside a round makes decoding fail. -/
theorem decodeLoop_of_invalid {k : Nat} (hk : k < 4) (hi : i < inputLength)
    (hlead : ∀ j < k, isBase64 (input[i + j]?.getD 0) = true)
    (hbase64 : isBase64 (input[i + k]?.getD 0) = false)
    (hpad : input[i + k]?.getD 0 ≠ padChar) (fuel : Nat) (written : List UInt8)
    (decodedLength : Nat) :
    decodeLoop input inputLength bufferSize padding (fuel + 1) i written decodedLength =
      some ⟨-1, written, decodedLength⟩ := by
  have hnext := nextSextet_of_invalid hbase64 hpad
  have hsextet := nextSextet_of_lead hlead
  rw [decodeLoop, if_pos hi]
  interval_cases k
  · simp only [Nat.add_zero] at hnext
    simp only [hnext]
  · have h0 := hsextet 0 (by decide)
    simp only [Nat.add_zero, Nat.zero_add] at h0
    simp only [h0, hnext]
  · have h0 := hsextet 0 (by decide)
    have h1 := hsextet 1 (by decide)
    simp only [Nat.add_zero, Nat.zero_add, Nat.reduceAdd] at h0 h1
    simp only [h0, h1, hnext]
  · have h0 := hsextet 0 (by decide)
    have h1 := hsextet 1 (by decide)
    have h2 := hsextet 2 (by decide)
    simp only [Nat.add_zero, Nat.zero_add, Nat.reduceAdd] at h0 h1 h2
    simp only [h0, h1, h2, hnext]

/-- The characters of the alphabet that stand at the front of `input` from
index `i` on. -/
def leading (input : List UInt8) (i : Nat) : List UInt8 :=
  (input.drop i).takeWhile isBase64

theorem isBase64_of_lt_leading {k : Nat} (hk : k < (leading input i).length) :
    isBase64 (input[i + k]?.getD 0) = true := by
  have hmem := List.mem_takeWhile_imp (List.getElem_mem hk)
  have hprefix : leading input i <+: input.drop i := List.takeWhile_prefix isBase64
  have hindex : k < (input.drop i).length := Nat.lt_of_lt_of_le hk hprefix.length_le
  rw [← List.getElem?_drop, List.getElem?_eq_getElem hindex, Option.getD_some,
    ← hprefix.getElem hk]
  exact hmem

theorem isBase64_leading (input : List UInt8) (i : Nat) :
    isBase64 (input[i + (leading input i).length]?.getD 0) = false := by
  have hdrop : (input.drop i).drop (leading input i).length =
      (input.drop i).dropWhile isBase64 := by
    have hsplit : leading input i ++ (input.drop i).dropWhile isBase64 = input.drop i :=
      List.takeWhile_append_dropWhile
    rw [← hsplit, List.drop_left, hsplit]
  have hhead : input[i + (leading input i).length]? =
      ((input.drop i).dropWhile isBase64).head? := by
    rw [← hdrop, List.drop_drop, List.head?_drop]
  rw [hhead]
  cases hrest : (input.drop i).dropWhile isBase64 with
  | nil => exact isBase64_zero
  | cons c rest =>
      have hfalse := List.head_dropWhile_not isBase64 (by rw [hrest]; exact List.cons_ne_nil c rest)
      simpa [hrest] using hfalse

theorem leading_le (hi : i ≤ inputLength) (hend : input[inputLength]?.getD 0 = 0) :
    i + (leading input i).length ≤ inputLength := by
  by_contra hlong
  have hinside := @isBase64_of_lt_leading input i (inputLength - i) (by omega)
  rw [Nat.add_sub_cancel' hi, hend, isBase64_zero] at hinside
  exact absurd hinside (by decide)

/-- Four characters at the front make the first group. -/
theorem leading_of_four (hfour : 4 ≤ (leading input i).length) :
    (leading input (i + 4)).length + 4 = (leading input i).length ∧
      decodeQuads (leading input i) =
        tripleBytes ((base64CharToValue (input[i]?.getD 0)).getD 0)
            ((base64CharToValue (input[i + 1]?.getD 0)).getD 0)
            ((base64CharToValue (input[i + 2]?.getD 0)).getD 0)
            ((base64CharToValue (input[i + 3]?.getD 0)).getD 0) ++
          decodeQuads (leading input (i + 4)) := by
  have hlead : ∀ k < 4, isBase64 (input[i + k]?.getD 0) = true := fun k hk =>
    isBase64_of_lt_leading (Nat.lt_of_lt_of_le hk hfour)
  have hlength : i + 4 ≤ input.length := by
    have hprefix : leading input i <+: input.drop i := List.takeWhile_prefix isBase64
    have := hprefix.length_le
    rw [List.length_drop] at this
    omega
  have hget : ∀ k < 4, ∃ hk : i + k < input.length, input[i + k]?.getD 0 = input[i + k] := by
    intro k hk
    exact ⟨by omega, by rw [List.getElem?_eq_getElem (by omega), Option.getD_some]⟩
  obtain ⟨hb0, h0⟩ := hget 0 (by decide)
  obtain ⟨hb1, h1⟩ := hget 1 (by decide)
  obtain ⟨hb2, h2⟩ := hget 2 (by decide)
  obtain ⟨hb3, h3⟩ := hget 3 (by decide)
  have h0' := hlead 0 (by decide)
  have h1' := hlead 1 (by decide)
  have h2' := hlead 2 (by decide)
  have h3' := hlead 3 (by decide)
  simp only [Nat.add_zero] at h0 h0' hb0
  rw [h0] at h0'
  rw [h1] at h1'
  rw [h2] at h2'
  rw [h3] at h3'
  have hdrop : input.drop i = input[i] :: input[i + 1] :: input[i + 2] :: input[i + 3] ::
      input.drop (i + 4) := by
    rw [List.drop_eq_getElem_cons hb0, List.drop_eq_getElem_cons hb1,
      List.drop_eq_getElem_cons hb2, List.drop_eq_getElem_cons hb3]
  have hleading : leading input i = input[i] :: input[i + 1] :: input[i + 2] :: input[i + 3] ::
      leading input (i + 4) := by
    rw [leading, hdrop, List.takeWhile_cons_of_pos h0', List.takeWhile_cons_of_pos h1',
      List.takeWhile_cons_of_pos h2', List.takeWhile_cons_of_pos h3']
    rfl
  rw [h0, h1, h2, h3, hleading]
  exact ⟨rfl, rfl⟩

/-- The loop, from any index and with rounds to spare. -/
theorem decodeLoop_eq (hend : input[inputLength]?.getD 0 = 0) (fuel : Nat)
    (hi : i ≤ inputLength) (hfuel : inputLength < i + fuel) (written : List UInt8)
    (decodedLength : Nat) :
    decodeLoop input inputLength bufferSize padding fuel i written decodedLength =
      if i + (leading input i).length = inputLength ∧ 4 ∣ (leading input i).length then
        some ⟨0, storeBytes bufferSize written (decodeQuads (leading input i)),
          sizeSub (decodedLength + 3 * ((leading input i).length / 4)) padding⟩
      else if input[i + (leading input i).length]?.getD 0 = padChar then none
      else some ⟨-1, storeBytes bufferSize written (decodeQuads (leading input i)),
        decodedLength + 3 * ((leading input i).length / 4)⟩ := by
  induction fuel generalizing i written decodedLength with
  | zero => omega
  | succ fuel ih =>
      have hle := leading_le hi hend
      by_cases hfour : 4 ≤ (leading input i).length
      · -- a whole group, and the loop goes on behind it
        obtain ⟨hlength, hquads⟩ := leading_of_four hfour
        rw [decodeLoop_quad (by omega) (fun k hk => isBase64_of_lt_leading (by omega)),
          ih (by omega) (by omega), hquads, storeBytes_append]
        have hindex : i + 4 + (leading input (i + 4)).length =
            i + (leading input i).length := by omega
        have hdvd : 4 ∣ (leading input (i + 4)).length ↔ 4 ∣ (leading input i).length := by
          omega
        have hcount : decodedLength + 3 + 3 * ((leading input (i + 4)).length / 4) =
            decodedLength + 3 * ((leading input i).length / 4) := by omega
        rw [hindex, hcount]
        simp only [hdvd]
      · have hquads : decodeQuads (leading input i) = [] := by
          rcases hlist : leading input i with _ | ⟨a, _ | ⟨b, _ | ⟨c, _ | ⟨d, rest⟩⟩⟩⟩
          case cons.cons.cons.cons => simp [hlist] at hfour
          all_goals rfl
        have hdiv : (leading input i).length / 4 = 0 := Nat.div_eq_of_lt (by omega)
        rw [hquads, hdiv]
        by_cases hstop : i = inputLength
        · have hzero : (leading input i).length = 0 := by omega
          rw [decodeLoop, if_neg (by omega), hzero, if_pos ⟨hstop, Nat.dvd_zero 4⟩]
          rfl
        · rw [if_neg (by omega)]
          by_cases hpad : input[i + (leading input i).length]?.getD 0 = padChar
          · have hinside : i + (leading input i).length ≠ inputLength := by
              intro heq
              rw [heq, hend] at hpad
              exact absurd hpad (by decide)
            rw [if_pos hpad, decodeLoop_of_inner_pad (by omega) (by omega)
              (fun j hj => isBase64_of_lt_leading hj) hpad]
          · rw [if_neg hpad, decodeLoop_of_invalid (by omega) (by omega)
              (fun j hj => isBase64_of_lt_leading hj) (isBase64_leading input i) hpad]
            rfl

/-- A loop that ends does so however many more rounds it is given. -/
theorem decodeLoop_add {decoding : Decoding} {fuel : Nat} {written : List UInt8}
    {decodedLength : Nat}
    (hends : decodeLoop input inputLength bufferSize padding fuel i written decodedLength =
      some decoding) (more : Nat) :
    decodeLoop input inputLength bufferSize padding (fuel + more) i written decodedLength =
      some decoding := by
  induction fuel generalizing i written decodedLength with
  | zero => exact absurd hends (by simp [decodeLoop])
  | succ fuel ih =>
      rw [Nat.add_right_comm, decodeLoop]
      rw [decodeLoop] at hends
      by_cases hi : i < inputLength
      · rw [if_pos hi] at hends ⊢
        dsimp only at hends ⊢
        split at hends
        · exact ih hends
        · exact hends
      · rw [if_neg hi] at hends ⊢
        exact hends

end Loop

/-- The outcome of decoding the string `text`. -/
def decodeText (text : List UInt8) (bufferSize decodedLength : Nat) : Option Decoding :=
  let lead := text.takeWhile isBase64
  let padding := countPadding text text.length
  if bufferSize < sizeSub (3 * (text.length / 4)) padding then some ⟨-1, [], decodedLength⟩
  else if lead.length = text.length ∧ 4 ∣ lead.length then
    some ⟨0, (decodeQuads lead).take bufferSize, sizeSub (3 * (lead.length / 4)) padding⟩
  else if text[lead.length]?.getD 0 = padChar then none
  else some ⟨-1, (decodeQuads lead).take bufferSize, 3 * (lead.length / 4)⟩

/-- The string that the decoder sees at `input`. -/
def decoderText (input : List UInt8) : List UInt8 :=
  cString (input.take fsMaxDataLength)

theorem countPadding_le (input : List UInt8) (inputLength : Nat) :
    countPadding input inputLength ≤ 2 := by
  unfold countPadding
  split <;> split <;> omega

theorem getElem?_decoderText {input : List UInt8} {index : Nat}
    (hindex : index < (decoderText input).length) :
    (decoderText input)[index]? = input[index]? := by
  have hprefix : decoderText input <+: input :=
    (cString_prefix_memory _).trans (List.take_prefix _ _)
  rw [List.getElem?_eq_getElem hindex, hprefix.getElem hindex, ← List.getElem?_eq_getElem]

theorem countPadding_decoderText (input : List UInt8) :
    countPadding (decoderText input) (decoderText input).length =
      countPadding input (decoderText input).length := by
  unfold countPadding
  congr 1
  · by_cases hone : 1 ≤ (decoderText input).length
    · rw [getElem?_decoderText (by omega)]
    · simp [hone]
  · by_cases htwo : 2 ≤ (decoderText input).length
    · rw [getElem?_decoderText (by omega)]
    · simp [htwo]

theorem decoderText_of_short {input : List UInt8}
    (hshort : (decoderText input).length < fsMaxDataLength) :
    decoderText input = cString input := by
  by_cases hlength : input.length ≤ fsMaxDataLength
  · rw [decoderText, List.take_of_length_le hlength]
  · -- the string ends inside the part that is looked at
    have hend := getElem?_length_cString (input.take fsMaxDataLength)
    change (input.take fsMaxDataLength)[(decoderText input).length]?.getD 0 = 0 at hend
    have hzero : (input.take fsMaxDataLength)[(decoderText input).length]? = some 0 := by
      have hinside : (decoderText input).length < (input.take fsMaxDataLength).length := by
        rw [List.length_take]
        omega
      rw [List.getElem?_eq_getElem hinside] at hend ⊢
      rw [Option.getD_some] at hend
      rw [hend]
    obtain ⟨hinside, hget⟩ := List.getElem?_eq_some_iff.1 hzero
    have hsplit : input = (input.take fsMaxDataLength).take (decoderText input).length ++
        0 :: ((input.take fsMaxDataLength).drop ((decoderText input).length + 1) ++
          input.drop fsMaxDataLength) := by
      rw [← List.cons_append, ← List.append_assoc, ← hget, ← List.drop_eq_getElem_cons hinside,
        List.take_append_drop, List.take_append_drop]
    have htext : (input.take fsMaxDataLength).take (decoderText input).length =
        decoderText input := (cString_eq_take _).symm
    rw [htext] at hsplit
    conv_rhs => rw [hsplit]
    exact (cString_append_zero (zero_not_mem_cString _) _).symm

/-- The characters of the alphabet in front of a string that ends in time. -/
theorem leading_decoderText {input : List UInt8}
    (hshort : (decoderText input).length < fsMaxDataLength) :
    leading input 0 = (decoderText input).takeWhile isBase64 := by
  rw [decoderText_of_short hshort, leading, List.drop_zero, cString, List.takeWhile_takeWhile]
  apply congrArg (fun p => List.takeWhile p input)
  funext c
  by_cases hzero : c = 0
  · subst hzero
    rfl
  · simp [hzero]

/-- The loop on a string that ends in time, with rounds to spare. -/
theorem decodeLoop_decoderText {input : List UInt8}
    (hshort : (decoderText input).length < fsMaxDataLength) {rounds : Nat}
    (hrounds : (decoderText input).length < rounds) (bufferSize padding : Nat) :
    decodeLoop input (decoderText input).length bufferSize padding rounds 0 [] 0 =
      if ((decoderText input).takeWhile isBase64).length = (decoderText input).length ∧
          4 ∣ ((decoderText input).takeWhile isBase64).length then
        some ⟨0, (decodeQuads ((decoderText input).takeWhile isBase64)).take bufferSize,
          sizeSub (3 * (((decoderText input).takeWhile isBase64).length / 4)) padding⟩
      else if (decoderText input)[((decoderText input).takeWhile isBase64).length]?.getD 0 =
          padChar then none
      else some ⟨-1, (decodeQuads ((decoderText input).takeWhile isBase64)).take bufferSize,
        3 * (((decoderText input).takeWhile isBase64).length / 4)⟩ := by
  have hend : input[(decoderText input).length]?.getD 0 = 0 := by
    rw [decoderText_of_short hshort]
    exact getElem?_length_cString input
  have hnil : ∀ bytes, storeBytes bufferSize [] bytes = bytes.take bufferSize := fun bytes =>
    storeBytes_eq_take (Nat.zero_le _) bytes
  have hindex : input[((decoderText input).takeWhile isBase64).length]?.getD 0 =
      (decoderText input)[((decoderText input).takeWhile isBase64).length]?.getD 0 := by
    by_cases hinside : ((decoderText input).takeWhile isBase64).length <
        (decoderText input).length
    · rw [getElem?_decoderText hinside]
    · have hwhole : ((decoderText input).takeWhile isBase64).length =
          (decoderText input).length :=
        Nat.le_antisymm (List.takeWhile_prefix _).length_le (Nat.le_of_not_lt hinside)
      rw [hwhole, hend, List.getElem?_eq_none_iff.2 (Nat.le_refl _), Option.getD_none]
  rw [decodeLoop_eq hend _ (Nat.zero_le _) (by omega), leading_decoderText hshort]
  simp only [Nat.zero_add, hnil, hindex]

/-- Decoding depends on the string only, as long as the string ends in time. -/
theorem fsBase64Decode_of_short {input : List UInt8}
    (hshort : (decoderText input).length < fsMaxDataLength) (bufferSize decodedLength : Nat) :
    fsBase64Decode input bufferSize decodedLength =
      decodeText (decoderText input) bufferSize decodedLength := by
  rw [fsBase64Decode, decodeText]
  have hlength : fsSafeStrnlen input fsMaxDataLength = (decoderText input).length := rfl
  have hpadding := countPadding_decoderText input
  simp only [hlength, hpadding]
  split
  · rfl
  · rw [decodeLoop_decoderText hshort (Nat.lt_succ_self _)]

/-- Into a buffer of at most 256 bytes it always does: a longer string is refused. -/
theorem fsBase64Decode_eq (input : List UInt8) {bufferSize : Nat}
    (hsize : bufferSize ≤ fsMaxPacketLength) (decodedLength : Nat) :
    fsBase64Decode input bufferSize decodedLength =
      decodeText (decoderText input) bufferSize decodedLength := by
  by_cases hshort : (decoderText input).length < fsMaxDataLength
  · exact fsBase64Decode_of_short hshort bufferSize decodedLength
  · have hpad := countPadding_le input (decoderText input).length
    have hlow := le_sizeSub_add (3 * ((decoderText input).length / 4)) hpad
    have hrefused : bufferSize < sizeSub (3 * ((decoderText input).length / 4))
        (countPadding input (decoderText input).length) := by
      unfold fsMaxPacketLength fsMaxDataLength at *
      omega
    have hlength : fsSafeStrnlen input fsMaxDataLength = (decoderText input).length := rfl
    have hpadding := countPadding_decoderText input
    rw [fsBase64Decode, decodeText]
    simp only [hlength, hpadding]
    rw [if_pos hrefused, if_pos hrefused]

/-- The strings on which decoding into a packet buffer succeeds: groups of
four characters of the alphabet, not too many of them. -/
def Decodable (text : List UInt8) : Prop :=
  (∀ c ∈ text, isBase64 c = true) ∧ 4 ∣ text.length ∧ 3 * (text.length / 4) ≤ fsMaxPacketLength

theorem length_decodeQuads (text : List UInt8) :
    (decodeQuads text).length = 3 * (text.length / 4) := by
  induction text using decodeQuads.induct with
  | case1 a b c d rest ih =>
      simp only [decodeQuads, tripleBytes, List.length_append, List.length_cons,
        List.length_nil, ih]
      omega
  | case2 text hshort =>
      rcases text with _ | ⟨a, _ | ⟨b, _ | ⟨c, _ | ⟨d, rest⟩⟩⟩⟩
      case cons.cons.cons.cons => exact absurd rfl (hshort a b c d rest)
      all_goals simp [decodeQuads]

theorem countPadding_of_isBase64 {text : List UInt8}
    (htext : ∀ c ∈ text, isBase64 c = true) : countPadding text text.length = 0 := by
  have hplain : ∀ index : Nat, text[index]?.getD 0 ≠ padChar := by
    intro index hpad
    cases hget : text[index]? with
    | none => simp [hget, padChar] at hpad
    | some c =>
        have hc := htext c (List.mem_of_getElem? hget)
        rw [hget, Option.getD_some] at hpad
        rw [hpad, isBase64_padChar] at hc
        exact absurd hc (by decide)
  simp [countPadding, hplain]

theorem decodeText_of_decodable {text : List UInt8} (htext : Decodable text)
    (decodedLength : Nat) :
    decodeText text fsMaxPacketLength decodedLength =
      some ⟨0, decodeQuads text, (decodeQuads text).length⟩ := by
  obtain ⟨hbase64, hdvd, hsize⟩ := htext
  have hlead : text.takeWhile isBase64 = text := List.takeWhile_eq_self_iff.2 hbase64
  have hpadding := countPadding_of_isBase64 hbase64
  have hlength := length_decodeQuads text
  simp only [decodeText, hlead, hpadding, sizeSub_zero]
  rw [if_neg (Nat.not_lt.2 hsize), if_pos ⟨trivial, hdvd⟩, List.take_of_length_le (by omega),
    hlength]

/-- Success is reported for no other string. -/
theorem decodable_of_decodeText {text : List UInt8} {decodedLength : Nat}
    {decoding : Decoding}
    (hdecode : decodeText text fsMaxPacketLength decodedLength = some decoding)
    (hcode : decoding.code = 0) : Decodable text := by
  simp only [decodeText] at hdecode
  split at hdecode
  · obtain rfl := Option.some.inj hdecode
    exact absurd hcode (by simp)
  · next hsize =>
      split at hdecode
      · next hwhole =>
          have hlead : text.takeWhile isBase64 = text :=
            (List.takeWhile_prefix isBase64).eq_of_length hwhole.1
          have hbase64 := List.takeWhile_eq_self_iff.1 hlead
          refine ⟨hbase64, by rw [← hwhole.1]; exact hwhole.2, ?_⟩
          rw [countPadding_of_isBase64 hbase64, sizeSub_zero] at hsize
          exact Nat.le_of_not_lt hsize
      · split at hdecode
        · exact absurd hdecode (by simp)
        · obtain rfl := Option.some.inj hdecode
          exact absurd hcode (by simp)

theorem decoderText_of_plain {payload : List UInt8} (hplain : 0 ∉ payload)
    (hlength : payload.length ≤ fsMaxDataLength) : decoderText payload = payload := by
  rw [decoderText, List.take_of_length_le hlength, cString_of_not_mem hplain]

/-- Whatever a packet buffer holds is encoded to a decodable string. -/
theorem decodable_encodeTriples {data : List UInt8} (hdata : data.length ≤ 255) :
    Decodable (encodeTriples data) ∧ decoderText (encodeTriples data) = encodeTriples data := by
  have hlength := length_encodeTriples data
  refine ⟨⟨fun c hc => isBase64_of_mem_encodeTriples hc, ?_, ?_⟩, ?_⟩
  · exact ⟨(data.length + 2) / 3, hlength⟩
  · unfold fsMaxPacketLength
    omega
  · apply decoderText_of_plain
    · intro hzero
      exact absurd (isBase64_of_mem_encodeTriples hzero) (by decide)
    · unfold fsMaxDataLength
      omega

end Trifecta
