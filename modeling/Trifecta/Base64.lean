/-
The Base64 encoder and decoder of the serial framing, in which a padding
character is never passed over: it yields zero bits for ever.
-/
import Trifecta.Defs
import Mathlib.Tactic.IntervalCases

namespace Trifecta

open CText

abbrev padChar : UInt8 := 61 -- '='

/-- `base64_chars`. -/
def base64Chars (value : Nat) : UInt8 :=
  if value < 26 then (65 + value).toUInt8
  else if value < 52 then (97 + (value - 26)).toUInt8
  else if value < 62 then (48 + (value - 52)).toUInt8
  else if value = 62 then 43
  else 47

/-- `base64_char_to_value`, with `none` for the entries -1 of the lookup
table. -/
def base64CharToValue (c : UInt8) : Option Nat :=
  if 65 ≤ c ∧ c ≤ 90 then some (c.toNat - 65)
  else if 97 ≤ c ∧ c ≤ 122 then some (c.toNat - 97 + 26)
  else if 48 ≤ c ∧ c ≤ 57 then some (c.toNat - 48 + 52)
  else if c = 43 then some 62
  else if c = 47 then some 63
  else none

/-- One round of the encoding loop. -/
def encodeTriple (octetA octetB octetC : UInt8) : List UInt8 :=
  let triple := (octetA.toNat <<< 16) + (octetB.toNat <<< 8) + octetC.toNat
  [base64Chars (triple >>> 18 &&& 63), base64Chars (triple >>> 12 &&& 63),
    base64Chars (triple >>> 6 &&& 63), base64Chars (triple &&& 63)]

/-- The encoding loop. -/
def encodeTriples : List UInt8 → List UInt8
  | [] => []
  | [octetA] => encodeTriple octetA 0 0
  | [octetA, octetB] => encodeTriple octetA octetB 0
  | octetA :: octetB :: octetC :: rest => encodeTriple octetA octetB octetC ++ encodeTriples rest

/-- The padding loop: both `i` and the output grow, so that the bound falls
while `i` rises. -/
def encodePadding : Nat → Nat → List UInt8
  | 0, _ => []
  | missing + 1, i => if i < missing + 1 then padChar :: encodePadding missing (i + 1) else []

/-- `fs_base64_encode`: the characters before the final NUL. -/
def fsBase64Encode (data : List UInt8) (bufferSize : Nat) : Option (List UInt8) :=
  let needed := 4 * ((data.length + 2) / 3)
  if bufferSize < needed + 1 then none
  else
    let output := encodeTriples data
    some (output ++ encodePadding (needed - output.length) 0)

/-- What `fs_base64_decode` leaves behind: its return code, the bytes stored at
the front of the output buffer and `*decoded_length`. -/
structure Decoding where
  code : Int
  written : List UInt8
  decodedLength : Nat
deriving DecidableEq

/-- `input[i] == '=' ? 0 : base64_char_to_value(input[i++])`: the sextet and
`i` afterwards. -/
def nextSextet (input : List UInt8) (i : Nat) : Option Nat × Nat :=
  let c := input[i]?.getD 0
  if c = padChar then (some 0, i) else (base64CharToValue c, i + 1)

/-- The three bytes of four sextets. -/
def tripleBytes (sextetA sextetB sextetC sextetD : Nat) : List UInt8 :=
  let triple := (sextetA <<< 18) + (sextetB <<< 12) + (sextetC <<< 6) + sextetD
  [(triple >>> 16 &&& 255).toUInt8, (triple >>> 8 &&& 255).toUInt8, (triple &&& 255).toUInt8]

/-- `if (j < buffer_size) output[j++] = ...`, for each of `bytes`. -/
def storeBytes (bufferSize : Nat) (written bytes : List UInt8) : List UInt8 :=
  bytes.foldl (fun stored byte =>
    if stored.length < bufferSize then stored ++ [byte] else stored) written

/-- The decoding loop for at most `fuel` rounds, `none` when these do not
suffice. -/
def decodeLoop (input : List UInt8) (inputLength bufferSize padding : Nat) :
    Nat → Nat → List UInt8 → Nat → Option Decoding
  | 0, _, _, _ => none
  | fuel + 1, i, written, decodedLength =>
      if i < inputLength then
        let a := nextSextet input i
        let b := nextSextet input a.2
        let c := nextSextet input b.2
        let d := nextSextet input c.2
        match a.1, b.1, c.1, d.1 with
        | some sextetA, some sextetB, some sextetC, some sextetD =>
            decodeLoop input inputLength bufferSize padding fuel d.2
              (storeBytes bufferSize written (tripleBytes sextetA sextetB sextetC sextetD))
              (decodedLength + 3)
        | _, _, _, _ => some ⟨-1, written, decodedLength⟩
      else some ⟨0, written, sizeSub decodedLength padding⟩

/-- The padding characters among the last two. -/
def countPadding (input : List UInt8) (inputLength : Nat) : Nat :=
  (if 1 ≤ inputLength ∧ input[inputLength - 1]?.getD 0 = padChar then 1 else 0) +
    (if 2 ≤ inputLength ∧ input[inputLength - 2]?.getD 0 = padChar then 1 else 0)

/-- `fs_base64_decode`, `none` when it does not return.  A round that leaves
`i` where it was repeats for ever, so more rounds than there are characters
decide whether the loop ends. -/
def fsBase64Decode (input : List UInt8) (bufferSize decodedLength : Nat) :
    Option Decoding :=
  let inputLength := fsSafeStrnlen input fsMaxDataLength
  let padding := countPadding input inputLength
  if bufferSize < sizeSub (3 * (inputLength / 4)) padding then some ⟨-1, [], decodedLength⟩
  else decodeLoop input inputLength bufferSize padding (inputLength + 1) 0 [] 0

def isBase64 (c : UInt8) : Bool :=
  (base64CharToValue c).isSome

/-- The bytes of the complete groups of four characters. -/
def decodeQuads : List UInt8 → List UInt8
  | a :: b :: c :: d :: rest =>
      tripleBytes ((base64CharToValue a).getD 0) ((base64CharToValue b).getD 0)
        ((base64CharToValue c).getD 0) ((base64CharToValue d).getD 0) ++ decodeQuads rest
  | _ => []

theorem base64CharToValue_base64Chars {value : Nat} (hvalue : value < 64) :
    base64CharToValue (base64Chars value) = some value := by
  interval_cases value <;> rfl

theorem toNat_triple (octetA octetB octetC : UInt8) :
    (octetA.toNat <<< 16) + (octetB.toNat <<< 8) + octetC.toNat =
      octetA.toNat * 65536 + octetB.toNat * 256 + octetC.toNat := by
  simp only [Nat.shiftLeft_eq]

theorem tripleBytes_sextets (octetA octetB octetC : UInt8) :
    let triple := (octetA.toNat <<< 16) + (octetB.toNat <<< 8) + octetC.toNat
    tripleBytes (triple >>> 18 &&& 63) (triple >>> 12 &&& 63) (triple >>> 6 &&& 63)
      (triple &&& 63) = [octetA, octetB, octetC] := by
  intro triple
  have hand : ∀ n : Nat, n &&& 63 = n % 64 := fun n => Nat.and_two_pow_sub_one_eq_mod n 6
  have hbyte : ∀ n : Nat, n &&& 255 = n % 256 := fun n => Nat.and_two_pow_sub_one_eq_mod n 8
  have hA := octetA.toNat_lt
  have hB := octetB.toNat_lt
  have hC := octetC.toNat_lt
  have htriple : triple = octetA.toNat * 65536 + octetB.toNat * 256 + octetC.toNat :=
    toNat_triple octetA octetB octetC
  have hsum : ((triple >>> 18 &&& 63) <<< 18) + ((triple >>> 12 &&& 63) <<< 12) +
      ((triple >>> 6 &&& 63) <<< 6) + (triple &&& 63) = triple := by
    simp only [hand, Nat.shiftRight_eq_div_pow, Nat.shiftLeft_eq]
    omega
  have htoUInt8 : ∀ (n : Nat) (byte : UInt8), n = byte.toNat → n.toUInt8 = byte := by
    rintro _ byte rfl
    exact UInt8.ofNat_toNat
  simp only [tripleBytes, hsum]
  simp only [hbyte, Nat.shiftRight_eq_div_pow]
  rw [htoUInt8 _ octetA (by omega), htoUInt8 _ octetB (by omega), htoUInt8 _ octetC (by omega)]

/-- The encoder's characters all have a value, and decoding a group gives its
bytes back. -/
theorem decodeQuads_encodeTriple_append (octetA octetB octetC : UInt8) (rest : List UInt8) :
    decodeQuads (encodeTriple octetA octetB octetC ++ rest) =
      octetA :: octetB :: octetC :: decodeQuads rest := by
  have hlt : ∀ n : Nat, n &&& 63 < 64 := fun n => by
    rw [Nat.and_two_pow_sub_one_eq_mod n 6]
    exact Nat.mod_lt _ (by decide)
  have hbytes := tripleBytes_sextets octetA octetB octetC
  simp only [encodeTriple, List.cons_append, List.nil_append, decodeQuads,
    base64CharToValue_base64Chars (hlt _), Option.getD_some, hbytes]

theorem decodeQuads_encodeTriples (data : List UInt8) :
    ∃ zeros, decodeQuads (encodeTriples data) = data ++ List.replicate zeros 0 := by
  induction data using encodeTriples.induct with
  | case1 => exact ⟨0, rfl⟩
  | case2 octetA =>
      have hgroup := decodeQuads_encodeTriple_append octetA 0 0 []
      rw [List.append_nil] at hgroup
      exact ⟨2, hgroup⟩
  | case3 octetA octetB =>
      have hgroup := decodeQuads_encodeTriple_append octetA octetB 0 []
      rw [List.append_nil] at hgroup
      exact ⟨1, hgroup⟩
  | case4 octetA octetB octetC rest ih =>
      obtain ⟨zeros, hrest⟩ := ih
      exact ⟨zeros, by rw [encodeTriples, decodeQuads_encodeTriple_append, hrest]; rfl⟩

theorem isBase64_of_mem_encodeTriple {octetA octetB octetC c : UInt8}
    (hc : c ∈ encodeTriple octetA octetB octetC) : isBase64 c = true := by
  have hlt : ∀ n : Nat, n &&& 63 < 64 := fun n => by
    rw [Nat.and_two_pow_sub_one_eq_mod n 6]
    exact Nat.mod_lt _ (by decide)
  simp only [encodeTriple, List.mem_cons, List.not_mem_nil, or_false] at hc
  rcases hc with rfl | rfl | rfl | rfl <;>
    simp only [isBase64, base64CharToValue_base64Chars (hlt _), Option.isSome_some]

theorem isBase64_of_mem_encodeTriples {data : List UInt8} {c : UInt8}
    (hc : c ∈ encodeTriples data) : isBase64 c = true := by
  induction data using encodeTriples.induct with
  | case1 => simp [encodeTriples] at hc
  | case2 octetA => exact isBase64_of_mem_encodeTriple hc
  | case3 octetA octetB => exact isBase64_of_mem_encodeTriple hc
  | case4 octetA octetB octetC rest ih =>
      rw [encodeTriples, List.mem_append] at hc
      rcases hc with hc | hc
      · exact isBase64_of_mem_encodeTriple hc
      · exact ih hc

theorem length_encodeTriples (data : List UInt8) :
    (encodeTriples data).length = 4 * ((data.length + 2) / 3) := by
  induction data using encodeTriples.induct with
  | case1 => rfl
  | case2 octetA => simp [encodeTriples, encodeTriple]
  | case3 octetA octetB => simp [encodeTriples, encodeTriple]
  | case4 octetA octetB octetC rest ih =>
      simp only [encodeTriples, encodeTriple, List.length_append, List.length_cons,
        List.length_nil, ih]
      omega

/-- No padding is ever written. -/
theorem fsBase64Encode_eq {data : List UInt8} {bufferSize : Nat}
    (hsize : 4 * ((data.length + 2) / 3) < bufferSize) :
    fsBase64Encode data bufferSize = some (encodeTriples data) := by
  rw [fsBase64Encode, if_neg (by omega)]
  simp only [length_encodeTriples, Nat.sub_self, encodePadding, List.append_nil]

end Trifecta
