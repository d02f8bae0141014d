/-
Base64 as a text format: which texts are padded Base64, and the bytes that such
a text stands for.
-/
import Mathlib.Data.List.TakeWhile
import Mathlib.Data.List.Basic

namespace PaddedBase64

/-- The character `=`. -/
def pad : UInt8 := 61

/-- The 64 characters in the order of their values: `A`-`Z`, `a`-`z`, `0`-`9`,
`+` and `/`. -/
def alphabet : List UInt8 :=
  (List.range 26).map (fun k => (65 + k).toUInt8) ++
    (List.range 26).map (fun k => (97 + k).toUInt8) ++
    (List.range 10).map (fun k => (48 + k).toUInt8) ++ [43, 47]

def value (c : UInt8) : Option Nat :=
  alphabet.idxOf? c

/-- Groups of four characters of the alphabet, of which padding replaces one or
two at the very end. -/
structure Valid (text : List UInt8) : Prop where
  groups : 4 ∣ text.length
  padded : ∃ body pads, text = body ++ List.replicate pads pad ∧ pads ≤ 2 ∧
    ∀ c ∈ body, c ∈ alphabet

/-- The bytes of a sequence of six-bit values.  The bits left over are dropped. -/
def bytesOf : List Nat → List UInt8
  | a :: b :: c :: d :: rest =>
      (a * 4 + b / 16).toUInt8 :: (b % 16 * 16 + c / 4).toUInt8 :: (c % 4 * 64 + d).toUInt8 ::
        bytesOf rest
  | [a, b, c] => [(a * 4 + b / 16).toUInt8, (b % 16 * 16 + c / 4).toUInt8]
  | [a, b] => [(a * 4 + b / 16).toUInt8]
  | _ => []

/-- The bytes that a text stands for. -/
def decoded (text : List UInt8) : List UInt8 :=
  bytesOf (text.filterMap value)

theorem pad_not_mem_alphabet : pad ∉ alphabet := by
  decide

theorem isSome_value_iff (c : UInt8) : (value c).isSome ↔ c ∈ alphabet := by
  rw [value, List.isSome_idxOf?]

/-- A text without padding is valid when it has whole groups. -/
theorem valid_of_forall {text : List UInt8} (hgroups : 4 ∣ text.length)
    (htext : ∀ c ∈ text, c ∈ alphabet) : Valid text := by
  refine ⟨hgroups, text, 0, ?_, Nat.zero_le 2, htext⟩
  rw [List.replicate_zero, List.append_nil]

/-- Only padding stands behind the characters of the alphabet in front. -/
theorem Valid.mem_drop {text : List UInt8} (hvalid : Valid text) {c : UInt8}
    (hc : c ∈ text.dropWhile (· ∈ alphabet)) : c = pad := by
  obtain ⟨body, pads, rfl, _, hbody⟩ := hvalid.padded
  have hdrop : (body ++ List.replicate pads pad).dropWhile (· ∈ alphabet) =
      List.replicate pads pad := by
    rw [List.dropWhile_append_of_pos fun c hmem => by simpa using hbody c hmem]
    cases pads with
    | zero => rfl
    | succ pads =>
        rw [List.replicate_succ, List.dropWhile_cons_of_neg]
        simpa using pad_not_mem_alphabet
  rw [hdrop] at hc
  exact List.eq_of_mem_replicate hc

end PaddedBase64
