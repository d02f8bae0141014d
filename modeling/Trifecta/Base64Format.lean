/-
The encoder and the decoder against padded Base64: on which strings the decoder
accepts just the valid ones, and which data survive both.
-/
import Trifecta.Base64Decode
import Trifecta.Library.PaddedBase64

namespace Trifecta

open CText PaddedBase64

/-- The decoder returns on the string `text`, followed by its terminator and
`rest` in memory, and accepts it with its bytes exactly when it is valid. -/
def DecodesExactly (text rest : List UInt8) (bufferSize decodedLength : Nat) : Prop :=
  ∃ decoding, fsBase64Decode (text ++ 0 :: rest) bufferSize decodedLength = some decoding ∧
    (decoding.code = 0 ∨ decoding.code = -1) ∧
    (decoding.code = 0 ↔ Valid text) ∧
    (decoding.code = 0 → decoding.decodedLength = (decoded text).length ∧
      decoding.written.take decoding.decodedLength = decoded text)

/-- The first character outside the alphabet is padding, and the check of the
buffer size does not refuse the string: `3 * (input_length / 4) - padding` wraps
round for a string of less than four characters that ends in padding. -/
def ReachesPadding (text : List UInt8) (bufferSize : Nat) : Prop :=
  (text.dropWhile (· ∈ alphabet)).head? = some pad ∧
    ¬ (text.length < 4 ∧ 0 < countPadding text text.length ∧
      bufferSize < 2 ^ 64 - countPadding text text.length)

/-- The lookup table is right on the alphabet and has -1 elsewhere. -/
theorem base64CharToValue_eq (c : UInt8) : base64CharToValue c = value c := by
  by_cases hc : c ∈ alphabet
  · have hall : ∀ c ∈ alphabet, base64CharToValue c = value c := by decide +kernel
    exact hall c hc
  · have hnone : ∀ n < 256, base64CharToValue n.toUInt8 = none ∨ n.toUInt8 ∈ alphabet := by
      decide +kernel
    have hvalue : value c = none := by
      rw [← Option.not_isSome_iff_eq_none, isSome_value_iff]
      exact hc
    have htable := hnone c.toNat c.toNat_lt
    simp only [Nat.toUInt8_eq, UInt8.ofNat_toNat] at htable
    rw [hvalue, htable.resolve_right hc]

theorem isBase64_iff (c : UInt8) : isBase64 c = true ↔ c ∈ alphabet := by
  rw [isBase64, base64CharToValue_eq, isSome_value_iff]

theorem isBase64_eq : isBase64 = fun c => decide (c ∈ alphabet) := by
  funext c
  rw [Bool.eq_iff_iff, isBase64_iff, decide_eq_true_iff]

theorem value_lt {c : UInt8} (hc : c ∈ alphabet) : (value c).getD 0 < 64 := by
  have hall : ∀ c ∈ alphabet, (value c).getD 0 < 64 := by decide +kernel
  exact hall c hc

/-- The bytes of four sextets are cut out of their 24 bits. -/
theorem tripleBytes_eq {a b c d : Nat} (ha : a < 64) (hb : b < 64) (hc : c < 64) (hd : d < 64) :
    tripleBytes a b c d =
      [(a * 4 + b / 16).toUInt8, (b % 16 * 16 + c / 4).toUInt8, (c % 4 * 64 + d).toUInt8] := by
  have hbyte : ∀ n : Nat, n &&& 255 = n % 256 := fun n => Nat.and_two_pow_sub_one_eq_mod n 8
  have hfirst : (a * 2 ^ 18 + b * 2 ^ 12 + c * 2 ^ 6 + d) / 2 ^ 16 % 256 = a * 4 + b / 16 := by
    omega
  have hsecond : (a * 2 ^ 18 + b * 2 ^ 12 + c * 2 ^ 6 + d) / 2 ^ 8 % 256 =
      b % 16 * 16 + c / 4 := by
    omega
  have hthird : (a * 2 ^ 18 + b * 2 ^ 12 + c * 2 ^ 6 + d) % 256 = c % 4 * 64 + d := by omega
  simp only [tripleBytes, Nat.shiftLeft_eq, Nat.shiftRight_eq_div_pow, hbyte, hfirst, hsecond,
    hthird]

/-- Whole groups of the alphabet are decoded as the format says. -/
theorem decodeQuads_eq {text : List UInt8} (hgroups : 4 ∣ text.length)
    (htext : ∀ c ∈ text, c ∈ alphabet) : decodeQuads text = decoded text := by
  induction text using decodeQuads.induct with
  | case1 a b c d rest ih =>
      simp only [List.mem_cons, forall_eq_or_imp] at htext
      obtain ⟨ha, hb, hc, hd, hrest⟩ := htext
      have hvalue : ∀ c ∈ alphabet, value c = some ((value c).getD 0) := by
        intro c hmem
        obtain ⟨v, hv⟩ := Option.isSome_iff_exists.1 ((isSome_value_iff c).2 hmem)
        rw [hv, Option.getD_some]
      have hlater := ih (by simp only [List.length_cons] at hgroups; omega) hrest
      rw [decodeQuads, hlater]
      simp only [base64CharToValue_eq]
      rw [tripleBytes_eq (value_lt ha) (value_lt hb) (value_lt hc) (value_lt hd), decoded, decoded,
        List.filterMap_cons_some (hvalue a ha), List.filterMap_cons_some (hvalue b hb),
        List.filterMap_cons_some (hvalue c hc), List.filterMap_cons_some (hvalue d hd), bytesOf]
      rfl
  | case2 text hshort =>
      rcases text with _ | ⟨a, _ | ⟨b, _ | ⟨c, _ | ⟨d, rest⟩⟩⟩⟩
      case cons.cons.cons.cons => exact absurd rfl (hshort a b c d rest)
      case nil => rfl
      all_goals simp only [List.length_cons, List.length_nil] at hgroups; omega

section Decoder

variable {text : List UInt8} {bufferSize : Nat}

theorem decoderText_append_zero (hplain : 0 ∉ text) (hlength : text.length ≤ 511)
    (rest : List UInt8) : decoderText (text ++ 0 :: rest) = text := by
  have htake : (text ++ 0 :: rest).take fsMaxDataLength =
      text ++ 0 :: rest.take (511 - text.length) := by
    have hroom : fsMaxDataLength - text.length = 511 - text.length + 1 := by
      unfold fsMaxDataLength
      omega
    rw [List.take_append, List.take_of_length_le (by unfold fsMaxDataLength; omega), hroom,
      List.take_succ_cons]
  rw [decoderText, htake, cString_append_zero hplain]

/-- What stands behind the characters of the alphabet in front. -/
theorem getElem?_length_takeWhile (text : List UInt8) :
    text[(text.takeWhile isBase64).length]? = (text.dropWhile (· ∈ alphabet)).head? := by
  rw [isBase64_eq]
  conv_lhs => rw [← List.takeWhile_append_dropWhile (p := (· ∈ alphabet)) (l := text)]
  rw [List.getElem?_append_right (by rw [List.takeWhile_append_dropWhile])]
  simp [List.head?_eq_getElem?]

theorem head?_dropWhile_eq_pad_iff :
    (text.dropWhile (· ∈ alphabet)).head? = some pad ↔
      text[(text.takeWhile isBase64).length]?.getD 0 = padChar := by
  rw [getElem?_length_takeWhile]
  cases (text.dropWhile (· ∈ alphabet)).head? with
  | none => simp [padChar]
  | some c => simp [padChar, pad]

/-- A buffer for all groups is refused only when the required size wraps
round. -/
theorem lt_sizeSub_iff (hbuffer : 3 * ((text.length + 3) / 4) ≤ bufferSize) :
    bufferSize < sizeSub (3 * (text.length / 4)) (countPadding text text.length) ↔
      text.length < 4 ∧ 0 < countPadding text text.length ∧
        bufferSize < 2 ^ 64 - countPadding text text.length := by
  have hpadding := countPadding_le text text.length
  unfold sizeSub
  split <;> omega

theorem fsBase64Decode_append_zero (hplain : 0 ∉ text) (hlength : text.length ≤ 511)
    (rest : List UInt8) (bufferSize decodedLength : Nat) :
    fsBase64Decode (text ++ 0 :: rest) bufferSize decodedLength =
      decodeText text bufferSize decodedLength := by
  have htext := decoderText_append_zero hplain hlength rest
  rw [fsBase64Decode_of_short (by rw [htext]; exact Nat.lt_succ_of_le hlength), htext]

/-- On a string of which it reaches a padding character the loop never ends,
however many rounds it makes. -/
theorem decodeLoop_of_reachesPadding (hplain : 0 ∉ text) (hlength : text.length ≤ 511)
    (hreaches : ReachesPadding text bufferSize) (rest : List UInt8) (padding rounds : Nat) :
    decodeLoop (text ++ 0 :: rest) text.length bufferSize padding rounds 0 [] 0 = none := by
  have htext := decoderText_append_zero hplain hlength rest
  have hpad := head?_dropWhile_eq_pad_iff.1 hreaches.1
  have hinside : (text.takeWhile isBase64).length ≠ text.length := by
    intro heq
    rw [heq, List.getElem?_eq_none_iff.2 (Nat.le_refl _)] at hpad
    exact absurd hpad (by decide)
  cases hrun : decodeLoop (text ++ 0 :: rest) text.length bufferSize padding rounds 0 [] 0 with
  | none => rfl
  | some decoding =>
      have hlong := @decodeLoop_decoderText (text ++ 0 :: rest)
        (by rw [htext]; exact Nat.lt_succ_of_le hlength)
        (rounds + (text.length + 1)) (by rw [htext]; omega) bufferSize padding
      rw [htext, if_neg (fun hwhole => hinside hwhole.1), if_pos hpad,
        decodeLoop_add hrun] at hlong
      exact absurd hlong (by simp)

/-- A valid text of less than four characters is empty. -/
theorem not_valid_of_short (hshort : text.length < 4)
    (hpadding : 0 < countPadding text text.length) : ¬ Valid text := by
  intro hvalid
  have hgroups := hvalid.groups
  have hempty : text.length = 0 := by omega
  rw [hempty] at hpadding
  exact absurd hpadding (by simp [countPadding])

/-- A valid text is all of the alphabet or goes on with padding. -/
theorem not_valid_of_invalid
    (hwhole : ¬ ((text.takeWhile isBase64).length = text.length ∧
      4 ∣ (text.takeWhile isBase64).length))
    (hpad : (text.dropWhile (· ∈ alphabet)).head? ≠ some pad) : ¬ Valid text := by
  intro hvalid
  cases hdrop : text.dropWhile (· ∈ alphabet) with
  | nil =>
      have hall := List.takeWhile_append_dropWhile (p := (· ∈ alphabet)) (l := text)
      rw [hdrop, List.append_nil, ← isBase64_eq] at hall
      rw [hall] at hwhole
      exact hwhole ⟨rfl, hvalid.groups⟩
  | cons c later =>
      have hc := hvalid.mem_drop (hdrop ▸ List.mem_cons_self)
      rw [hdrop, List.head?_cons, hc] at hpad
      exact hpad rfl

/-- The decoder meets the format exactly on the strings of which it does not
reach a padding character. -/
theorem decodesExactly_iff (hplain : 0 ∉ text) (hlength : text.length ≤ 511)
    (hbuffer : 3 * ((text.length + 3) / 4) ≤ bufferSize) (rest : List UInt8)
    (decodedLength : Nat) :
    DecodesExactly text rest bufferSize decodedLength ↔ ¬ ReachesPadding text bufferSize := by
  rw [DecodesExactly, fsBase64Decode_append_zero hplain hlength, ReachesPadding,
    ← lt_sizeSub_iff hbuffer]
  simp only [decodeText]
  by_cases hrefused : bufferSize < sizeSub (3 * (text.length / 4)) (countPadding text text.length)
  · have hshort := (lt_sizeSub_iff hbuffer).1 hrefused
    have hinvalid := not_valid_of_short hshort.1 hshort.2.1
    simp [hrefused, hinvalid]
  rw [if_neg hrefused, and_iff_left hrefused]
  by_cases hwhole : (text.takeWhile isBase64).length = text.length ∧
      4 ∣ (text.takeWhile isBase64).length
  · have hlead : text.takeWhile isBase64 = text :=
      (List.takeWhile_prefix isBase64).eq_of_length hwhole.1
    have hbase64 := List.takeWhile_eq_self_iff.1 hlead
    have htext : ∀ c ∈ text, c ∈ alphabet := fun c hc => (isBase64_iff c).1 (hbase64 c hc)
    have hgroups : 4 ∣ text.length := hwhole.1 ▸ hwhole.2
    have hbytes := decodeQuads_eq hgroups htext
    have hdecoded := length_decodeQuads text
    rw [if_pos hwhole, hlead, countPadding_of_isBase64 hbase64, sizeSub_zero, ← hdecoded, hbytes]
    refine iff_of_true ⟨_, rfl, Or.inl rfl, iff_of_true rfl (valid_of_forall hgroups htext),
      fun _ => ⟨rfl, ?_⟩⟩ ?_
    · rw [hbytes] at hdecoded
      have hroom : (decoded text).length ≤ bufferSize := by omega
      rw [List.take_of_length_le hroom]
      exact List.take_length
    · rw [List.dropWhile_eq_nil_iff.2 fun c hc => by simpa using htext c hc]
      simp
  · rw [if_neg hwhole]
    by_cases hpad : (text.dropWhile (· ∈ alphabet)).head? = some pad
    · rw [if_pos (head?_dropWhile_eq_pad_iff.1 hpad)]
      exact iff_of_false (by simp) (not_not_intro hpad)
    · rw [if_neg (mt head?_dropWhile_eq_pad_iff.2 hpad)]
      have hinvalid := not_valid_of_invalid hwhole hpad
      refine iff_of_true ⟨_, rfl, Or.inr rfl, ?_, ?_⟩ hpad
      · exact iff_of_false (by simp) hinvalid
      · exact fun hcode => absurd hcode (by simp)

end Decoder

theorem decodesExactly_iff_plain :
    DecodesExactly [81, 85, 70, 66] [] 3 0 ↔ ¬ ReachesPadding [81, 85, 70, 66] 3 :=
  decodesExactly_iff (by decide) (by decide) (by decide) [] 0

/-- The valid text `QUE=` is never decoded. -/
theorem not_decodesExactly_padded :
    Valid [81, 85, 69, 61] ∧ ¬ DecodesExactly [81, 85, 69, 61] [] 3 0 ∧
      ∀ rounds, decodeLoop ([81, 85, 69, 61] ++ [0]) 4 3 1 rounds 0 [] 0 = none := by
  have hreaches : ReachesPadding [81, 85, 69, 61] 3 := ⟨by decide, by decide⟩
  have hdigits : ∀ c ∈ ([81, 85, 69] : List UInt8), c ∈ alphabet := by
    rw [List.forall_mem_cons, List.forall_mem_cons, List.forall_mem_singleton]
    decide
  refine ⟨⟨by decide, [81, 85, 69], 1, rfl, by decide, hdigits⟩, ?_, fun rounds => ?_⟩
  · rintro ⟨decoding, hdecode, _⟩
    have hnone : fsBase64Decode ([81, 85, 69, 61] ++ [0]) 3 0 = none := by decide
    rw [hnone] at hdecode
    exact absurd hdecode (by simp)
  · exact decodeLoop_of_reachesPadding (by decide) (by decide) hreaches [] 1 rounds

/-- Encoding into a buffer of `encodeSize` bytes succeeds, and decoding the
result gives the data back, with its length. -/
def RoundTrips (data rest : List UInt8) (encodeSize decodeSize decodedLength : Nat) : Prop :=
  ∃ text, fsBase64Encode data encodeSize = some text ∧
    ∃ decoding, fsBase64Decode (text ++ 0 :: rest) decodeSize decodedLength = some decoding ∧
      decoding.code = 0 ∧ decoding.decodedLength = data.length ∧
      decoding.written.take data.length = data

/-- What decoding an encoded text gives: the data, filled up to whole groups
with zero bytes. -/
theorem decode_encodeTriples {data : List UInt8} (hlength : 4 * ((data.length + 2) / 3) ≤ 511)
    {decodeSize : Nat} (hdecode : 3 * ((data.length + 2) / 3) ≤ decodeSize)
    (rest : List UInt8) (decodedLength : Nat) :
    ∃ zeros, data.length + zeros = 3 * ((data.length + 2) / 3) ∧
      fsBase64Decode (encodeTriples data ++ 0 :: rest) decodeSize decodedLength =
        some ⟨0, data ++ List.replicate zeros 0, data.length + zeros⟩ := by
  have htext := length_encodeTriples data
  have hbase64 : ∀ c ∈ encodeTriples data, isBase64 c = true := fun c =>
    isBase64_of_mem_encodeTriples
  have hplain : 0 ∉ encodeTriples data := fun hzero =>
    absurd (hbase64 0 hzero) (by decide)
  have hlead := List.takeWhile_eq_self_iff.2 hbase64
  obtain ⟨zeros, hquads⟩ := decodeQuads_encodeTriples data
  have hbytes := length_decodeQuads (encodeTriples data)
  have hpadding := countPadding_of_isBase64 hbase64
  have hgroups : 4 * ((data.length + 2) / 3) / 4 = (data.length + 2) / 3 :=
    Nat.mul_div_cancel_left _ (by decide)
  rw [htext, hgroups, hquads, List.length_append, List.length_replicate] at hbytes
  rw [htext] at hpadding
  refine ⟨zeros, hbytes, ?_⟩
  rw [fsBase64Decode_append_zero hplain (by rw [htext]; exact hlength)]
  simp only [decodeText, hlead, hpadding, sizeSub_zero, hquads, htext,
    hgroups, hbytes]
  rw [if_neg (Nat.not_lt.2 hdecode), if_pos ⟨trivial, Nat.dvd_mul_right 4 _⟩,
    List.take_of_length_le]
  rw [List.length_append, List.length_replicate, hbytes]
  exact hdecode

/-- Data survive encoding and decoding exactly when they fill their last group:
the encoder never pads, so that the decoder cannot tell how long they were. -/
theorem roundTrips_iff {data : List UInt8} (hlength : 4 * ((data.length + 2) / 3) ≤ 511)
    {encodeSize decodeSize : Nat} (hencode : 4 * ((data.length + 2) / 3) < encodeSize)
    (hdecode : 3 * ((data.length + 2) / 3) ≤ decodeSize) (rest : List UInt8)
    (decodedLength : Nat) :
    RoundTrips data rest encodeSize decodeSize decodedLength ↔ 3 ∣ data.length := by
  obtain ⟨zeros, hzeros, hdecoded⟩ := decode_encodeTriples hlength hdecode rest decodedLength
  constructor
  · rintro ⟨text, htext, decoding, hdecoding, _, hsame, _⟩
    rw [fsBase64Encode_eq hencode] at htext
    obtain rfl := Option.some.inj htext
    rw [hdecoded] at hdecoding
    obtain rfl := Option.some.inj hdecoding
    have hsum : data.length + zeros = data.length := hsame
    exact ⟨(data.length + 2) / 3, by omega⟩
  · intro hthree
    have hnone : zeros = 0 := by omega
    subst hnone
    refine ⟨_, fsBase64Encode_eq hencode, _, hdecoded, rfl, rfl, ?_⟩
    rw [List.replicate_zero, List.append_nil, List.take_length]

theorem roundTrips_iff_three : RoundTrips [1, 2, 3] [] 5 3 0 ↔ 3 ∣ [1, 2, 3].length :=
  roundTrips_iff (by decide) (by decide) (by decide) [] 0

/-- The length of one byte comes back as three. -/
theorem not_roundTrips_single : ¬ RoundTrips [77] [] 5 3 0 := by
  rintro ⟨text, htext, decoding, hdecoding, _, hlength, _⟩
  have hencoded : fsBase64Encode [77] 5 = some [84, 81, 65, 65] := by decide
  have hdecoded : fsBase64Decode ([84, 81, 65, 65] ++ [0]) 3 0 = some ⟨0, [77, 0, 0], 3⟩ := by
    decide
  rw [hencoded] at htext
  obtain rfl := Option.some.inj htext
  rw [hdecoded] at hdecoding
  obtain rfl := Option.some.inj hdecoding
  exact absurd hlength (by decide)

end Trifecta
