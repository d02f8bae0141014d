/-
NUL-terminated byte strings and the number conversions of the C standard
library, for a machine with 64-bit `long` and 32-bit `int`.
-/
import Trifecta.Library.Block
import Mathlib.Data.List.TakeWhile
import Mathlib.Data.Int.Basic
import Mathlib.Algebra.Group.Int.Defs

namespace CText

/-- The C string that starts a memory region. -/
def cString (memory : List UInt8) : List UInt8 :=
  memory.takeWhile (· ≠ 0)

theorem cString_append_zero {text : List UInt8} (htext : 0 ∉ text) (rest : List UInt8) :
    cString (text ++ 0 :: rest) = text := by
  rw [cString, List.takeWhile_append_of_pos]
  · simp
  · intro byte hbyte
    simp only [ne_eq, decide_eq_true_eq]
    rintro rfl
    exact htext hbyte

theorem cString_of_not_mem {text : List UInt8} (htext : 0 ∉ text) : cString text = text := by
  rw [cString, List.takeWhile_eq_self_iff]
  intro byte hbyte
  simp only [ne_eq, decide_eq_true_eq]
  rintro rfl
  exact htext hbyte

theorem zero_not_mem_cString (memory : List UInt8) : 0 ∉ cString memory := by
  intro hmem
  have := List.mem_takeWhile_imp hmem
  simp at this

theorem cString_eq_take (memory : List UInt8) :
    cString memory = memory.take (cString memory).length :=
  List.prefix_iff_eq_take.mp (List.takeWhile_prefix _)

theorem cString_prefix_memory (memory : List UInt8) : cString memory <+: memory :=
  List.takeWhile_prefix _

theorem getElem?_length_cString (memory : List UInt8) :
    memory[(cString memory).length]?.getD 0 = 0 := by
  induction memory with
  | nil => rfl
  | cons byte rest ih =>
      by_cases hbyte : byte = 0
      · subst hbyte
        rfl
      · have hstring : cString (byte :: rest) = byte :: cString rest := by
          simp [cString, hbyte]
        rw [hstring, List.length_cons, List.getElem?_cons_succ]
        exact ih

theorem cString_append_zero_cons (front rest : List UInt8) :
    cString (front ++ 0 :: rest) = cString front := by
  induction front with
  | nil => rfl
  | cons byte front ih =>
      by_cases hbyte : byte = 0 <;> simp_all [cString]

theorem length_cString_le (memory : List UInt8) : (cString memory).length ≤ memory.length :=
  (cString_prefix_memory memory).length_le

/-- `isspace` in the C locale. -/
def isspace (c : UInt8) : Bool :=
  c = 32 || (9 ≤ c && c ≤ 13)

/-- `tolower` in the C locale. -/
def tolower (c : UInt8) : UInt8 :=
  if 65 ≤ c ∧ c ≤ 90 then c + 32 else c

def isdigit (c : UInt8) : Bool :=
  48 ≤ c && c ≤ 57

/-- The value of a run of decimal digits. -/
def digitsValue (digits : List UInt8) : Nat :=
  digits.foldl (fun value digit => 10 * value + (digit.toNat - 48)) 0

/-- Sign and leading digits of a number, after any white space. -/
def scanNumber (text : List UInt8) : Bool × List UInt8 :=
  match text.dropWhile isspace with
  | 45 :: rest => (true, rest.takeWhile isdigit)
  | 43 :: rest => (false, rest.takeWhile isdigit)
  | rest => (false, rest.takeWhile isdigit)

/-- `strtol(text, NULL, 10)` for a 64-bit `long`. -/
def strtol (text : List UInt8) : Int :=
  match scanNumber text with
  | (true, digits) => max (-(digitsValue digits : Int)) (-2 ^ 63)
  | (false, digits) => min (digitsValue digits : Int) (2 ^ 63 - 1)

/-- `strtoul(text, NULL, 10)` and `strtoull` for 64-bit results. -/
def strtoul (text : List UInt8) : Nat :=
  match scanNumber text with
  | (negative, digits) =>
      if 2 ^ 64 ≤ digitsValue digits then 2 ^ 64 - 1
      else if negative then (2 ^ 64 - digitsValue digits) % 2 ^ 64
      else digitsValue digits

/-- `atoi`: the low 32 bits of `strtol`, read as a signed number. -/
def atoi (text : List UInt8) : Int :=
  (strtol text).bmod (2 ^ 32)

/-- The number that an optional sign and at least one decimal digit spell. -/
def decimalInt (text : List UInt8) : Option Int :=
  match text with
  | 45 :: digits =>
      if digits ≠ [] ∧ digits.all isdigit then some (-digitsValue digits) else none
  | 43 :: digits =>
      if digits ≠ [] ∧ digits.all isdigit then some (digitsValue digits) else none
  | digits =>
      if digits ≠ [] ∧ digits.all isdigit then some (digitsValue digits) else none

/-- Decimal digits of a natural number, as `%u` and `%llu` print them. -/
def decimal (value : Nat) : List UInt8 :=
  (Nat.toDigits 10 value).map fun digit => digit.toNat.toUInt8

theorem decimal_ne_nil (value : Nat) : decimal value ≠ [] := by
  simp [decimal, Nat.toDigits_ne_nil]

theorem toNat_digit {digit : Char} (hdigit : digit.isDigit) :
    digit.toNat.toUInt8.toNat = digit.toNat := by
  simp only [Char.isDigit, Bool.and_eq_true, decide_eq_true_eq] at hdigit
  have hle : digit.toNat ≤ 57 := hdigit.2
  simp
  omega

theorem isdigit_of_mem_decimal {value : Nat} {byte : UInt8} (hbyte : byte ∈ decimal value) :
    isdigit byte = true := by
  simp only [decimal, List.mem_map] at hbyte
  obtain ⟨digit, hdigit, rfl⟩ := hbyte
  have hisDigit := Nat.isDigit_of_mem_toDigits (by decide) (by decide) hdigit
  have hvalue := toNat_digit hisDigit
  simp only [Char.isDigit, Bool.and_eq_true, decide_eq_true_eq] at hisDigit
  have hlow : 48 ≤ digit.toNat := hisDigit.1
  have hhigh : digit.toNat ≤ 57 := hisDigit.2
  simp only [isdigit, Bool.and_eq_true, decide_eq_true_eq, UInt8.le_iff_toNat_le, hvalue]
  exact ⟨hlow, hhigh⟩

theorem digitsValue_decimal (value : Nat) : digitsValue (decimal value) = value := by
  have hfold : ∀ (digits : List Char) (start : Nat), (∀ digit ∈ digits, digit.isDigit) →
      (digits.map fun digit => digit.toNat.toUInt8).foldl
        (fun value (digit : UInt8) => 10 * value + (digit.toNat - 48)) start =
      Nat.ofDigitChars 10 digits start := by
    intro digits
    induction digits with
    | nil => intro start _; simp
    | cons digit rest ih =>
        intro start hdigits
        rw [List.map_cons, List.foldl_cons, Nat.ofDigitChars_cons,
          toNat_digit (hdigits digit List.mem_cons_self)]
        exact ih _ fun other hother => hdigits other (List.mem_cons_of_mem digit hother)
  rw [digitsValue, decimal, hfold _ _ fun digit hdigit =>
    Nat.isDigit_of_mem_toDigits (by decide) (by decide) hdigit]
  exact Nat.ofDigitChars_ten_toDigits

theorem isspace_of_isdigit {byte : UInt8} (hbyte : isdigit byte = true) :
    isspace byte = false := by
  simp only [isdigit, Bool.and_eq_true, decide_eq_true_eq, UInt8.le_iff_toNat_le] at hbyte
  have hlow : 48 ≤ byte.toNat := hbyte.1
  simp only [isspace, Bool.or_eq_false_iff, decide_eq_false_iff_not, Bool.and_eq_false_iff,
    UInt8.le_iff_toNat_le, not_le]
  refine ⟨?_, Or.inr (by simpa using Nat.lt_of_lt_of_le (by decide) hlow)⟩
  rintro rfl
  simp at hlow

theorem scanNumber_of_digits {digits : List UInt8} (hne : digits ≠ [])
    (hdigits : digits.all isdigit) : scanNumber digits = (false, digits) := by
  rw [List.all_eq_true] at hdigits
  have htake : digits.takeWhile isdigit = digits := List.takeWhile_eq_self_iff.2 hdigits
  obtain ⟨digit, rest, rfl⟩ := List.exists_cons_of_ne_nil hne
  have hdigit := hdigits digit List.mem_cons_self
  have hdrop : (digit :: rest).dropWhile isspace = digit :: rest := by
    simp [isspace_of_isdigit hdigit]
  rw [scanNumber, hdrop]
  split
  · next heq =>
      rw [List.cons.injEq] at heq
      simp [heq.1, isdigit] at hdigit
  · next heq =>
      rw [List.cons.injEq] at heq
      simp [heq.1, isdigit] at hdigit
  · rw [htake]

/-- `strtol` reads a decimal as its value, cut to the range of the result. -/
theorem strtol_of_decimalInt {text : List UInt8} {value : Int}
    (hvalue : decimalInt text = some value) (hlow : -2 ^ 63 ≤ value)
    (hhigh : value < 2 ^ 63) : strtol text = value := by
  unfold decimalInt at hvalue
  split at hvalue
  · next digits =>
      rw [Option.ite_none_right_eq_some, Option.some.injEq] at hvalue
      obtain ⟨⟨_, hdigits⟩, rfl⟩ := hvalue
      have htake := List.takeWhile_eq_self_iff.2 (List.all_eq_true.1 hdigits)
      have hscan : scanNumber (45 :: digits) = (true, digits) := by
        simp [scanNumber, isspace, htake]
      simp only [strtol, hscan]
      omega
  · next digits =>
      rw [Option.ite_none_right_eq_some, Option.some.injEq] at hvalue
      obtain ⟨⟨_, hdigits⟩, rfl⟩ := hvalue
      have htake := List.takeWhile_eq_self_iff.2 (List.all_eq_true.1 hdigits)
      have hscan : scanNumber (43 :: digits) = (false, digits) := by
        simp [scanNumber, isspace, htake]
      simp only [strtol, hscan]
      omega
  · rw [Option.ite_none_right_eq_some, Option.some.injEq] at hvalue
    obtain ⟨⟨hne, hdigits⟩, rfl⟩ := hvalue
    simp only [strtol, scanNumber_of_digits hne hdigits]
    omega

theorem atoi_of_decimalInt {text : List UInt8} {value : Int}
    (hvalue : decimalInt text = some value) (hlow : -2 ^ 31 ≤ value)
    (hhigh : value < 2 ^ 31) : atoi text = value := by
  rw [atoi, strtol_of_decimalInt hvalue (by omega) (by omega)]
  exact Int.bmod_eq_of_le (by omega) (by omega)

/-- Digits followed by a byte that is none are scanned back exactly. -/
theorem scanNumber_decimal_append (value : Nat) {rest : List UInt8}
    (hrest : ∀ byte ∈ rest.head?, isdigit byte = false) :
    scanNumber (decimal value ++ rest) = (false, decimal value) := by
  have htake : (decimal value ++ rest).takeWhile isdigit = decimal value := by
    rw [List.takeWhile_append_of_pos fun byte hbyte => isdigit_of_mem_decimal hbyte]
    cases rest with
    | nil => simp
    | cons byte tail => simp [hrest byte rfl]
  obtain ⟨digit, digits, hdecimal⟩ := List.exists_cons_of_ne_nil (decimal_ne_nil value)
  have hdigit : isdigit digit = true :=
    isdigit_of_mem_decimal (hdecimal ▸ List.mem_cons_self)
  have hdrop : (decimal value ++ rest).dropWhile isspace = decimal value ++ rest := by
    simp [hdecimal, isspace_of_isdigit hdigit]
  rw [scanNumber, hdrop]
  split
  · next heq =>
      rw [hdecimal, List.cons_append, List.cons.injEq] at heq
      simp [heq.1, isdigit] at hdigit
  · next heq =>
      rw [hdecimal, List.cons_append, List.cons.injEq] at heq
      simp [heq.1, isdigit] at hdigit
  · rw [htake]

theorem strtol_decimal_append {value : Nat} (hvalue : value < 2 ^ 63) {rest : List UInt8}
    (hrest : ∀ byte ∈ rest.head?, isdigit byte = false) :
    strtol (decimal value ++ rest) = value := by
  simp only [strtol, scanNumber_decimal_append value hrest, digitsValue_decimal]
  omega

theorem strtoul_decimal {value : Nat} (hvalue : value < 2 ^ 64) :
    strtoul (decimal value) = value := by
  have hscan := @scanNumber_decimal_append value [] (by simp)
  rw [List.append_nil] at hscan
  simp [strtoul, hscan, digitsValue_decimal]
  omega

end CText

/-- The C string held in a character array. -/
def Block.text {size : Nat} (array : Block size) : List UInt8 :=
  CText.cString array.bytes
