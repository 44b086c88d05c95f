/-
# Manet.Protocol.Base64 — the encoder is RFC 4648's

`base64_encode` (`utils/base64.hpp`) takes three bytes at a time and cuts their 24 bits into
four digits of six.  In numbers (`shifted_toNat`, `moved_toNat`, `joined_toNat`) the digits of
a group are those of its value to the base 64, so a decoder that puts the value together again
(`base64Decode`, section 4 of the RFC, with the pad bits required to be zero) reads back the
group, and the tail of one or two bytes likewise.  `base64_rfc4648` is the whole contract:
size, alphabet, padding, decoding, injectivity.
-/
import Manet.Protocol.WebSocketHandshake

namespace Manet.Protocol

open Manet.Bytes

set_option autoImplicit false

/-! ## Six bits at a time -/

section Sextets

variable (a b : UInt8)

theorem shifted_toNat (k : UInt8) : (a >>> k).toNat = a.toNat / 2 ^ (k.toNat % 8) := by
  rw [UInt8.toNat_shiftRight, Nat.shiftRight_eq_div_pow]

theorem low_toNat : (a &&& 0x3f).toNat = a.toNat % 64 := by
  rw [UInt8.toNat_and]
  exact Nat.and_two_pow_sub_one_eq_mod a.toNat 6

/-- The `w` low bits of a byte, moved up by `k`. -/
theorem moved_toNat {mask k : UInt8} {w : Nat} (ones : mask.toNat = 2 ^ w - 1)
    (fits : w + k.toNat % 8 ≤ 8) :
    ((a &&& mask) <<< k).toNat = a.toNat % 2 ^ w * 2 ^ (k.toNat % 8) := by
  have low : a.toNat % 2 ^ w < 2 ^ w := Nat.mod_lt _ (Nat.two_pow_pos w)
  have room : a.toNat % 2 ^ w * 2 ^ (k.toNat % 8) < 2 ^ 8 := by
    calc a.toNat % 2 ^ w * 2 ^ (k.toNat % 8)
        < 2 ^ w * 2 ^ (k.toNat % 8) := Nat.mul_lt_mul_of_pos_right low (Nat.two_pow_pos _)
      _ = 2 ^ (w + k.toNat % 8) := (Nat.pow_add 2 w _).symm
      _ ≤ 2 ^ 8 := Nat.pow_le_pow_right (by decide) fits
  rw [UInt8.toNat_shiftLeft, UInt8.toNat_and, ones, Nat.and_two_pow_sub_one_eq_mod,
    Nat.shiftLeft_eq]
  exact Nat.mod_eq_of_lt room

/-- The low bits of a byte, and the high bits of the next. -/
theorem joined_toNat {mask k j : UInt8} {w : Nat} (ones : mask.toNat = 2 ^ w - 1)
    (fits : w + k.toNat % 8 ≤ 8) (meets : k.toNat % 8 + j.toNat % 8 = 8) :
    (((a &&& mask) <<< k) ||| (b >>> j)).toNat =
      a.toNat % 2 ^ w * 2 ^ (k.toNat % 8) + b.toNat / 2 ^ (j.toNat % 8) := by
  have high : b.toNat / 2 ^ (j.toNat % 8) < 2 ^ (k.toNat % 8) := by
    rw [Nat.div_lt_iff_lt_mul (Nat.two_pow_pos _), ← Nat.pow_add, meets]
    exact b.toNat_lt
  rw [UInt8.toNat_or, moved_toNat a ones fits, shifted_toNat, ← Nat.shiftLeft_eq,
    ← Nat.shiftLeft_add_eq_or_of_lt high]

end Sextets

/-! The four digits of a group, and the two of a tail that are padded with zero bits. -/

section Digits

variable (a b c : UInt8)

theorem digit_first : (a >>> 2).toNat = a.toNat / 4 := shifted_toNat a 2

theorem digit_second : (((a &&& 0x03) <<< 4) ||| (b >>> 4)).toNat = a.toNat % 4 * 16 + b.toNat / 16 :=
  joined_toNat a b (w := 2) rfl (by decide) (by decide)

theorem digit_third : (((b &&& 0x0f) <<< 2) ||| (c >>> 6)).toNat = b.toNat % 16 * 4 + c.toNat / 64 :=
  joined_toNat b c (w := 4) rfl (by decide) (by decide)

theorem digit_padded_second : ((a &&& 0x03) <<< 4).toNat = a.toNat % 4 * 16 :=
  moved_toNat a (w := 2) rfl (by decide)

theorem digit_padded_third : ((b &&& 0x0f) <<< 2).toNat = b.toNat % 16 * 4 :=
  moved_toNat b (w := 4) rfl (by decide)

end Digits

/-! ## The alphabet -/

theorem base64Digit_mem {n : UInt8} (small : n.toNat < 64) : base64Digit n ∈ base64Table := by
  have inside : n.toNat < base64Table.length := by
    have size : base64Table.length = 64 := by decide
    omega
  rw [base64Digit, List.getD_eq_getElem _ _ inside]
  exact List.getElem_mem inside

/-- The padding that `m` bytes need. -/
def padding (m : Nat) : List UInt8 := List.replicate ((3 - m % 3) % 3) 61

/-- What the encoder writes are digits, and padding only behind them. -/
theorem base64Encode_digits : ∀ input : List UInt8,
    ∃ digits, base64Encode input = digits ++ padding input.length ∧ ∀ d ∈ digits, d ∈ base64Table
  | a :: b :: c :: rest => by
      obtain ⟨digits, text, inside⟩ := base64Encode_digits rest
      have bytes := And.intro a.toNat_lt (And.intro b.toNat_lt c.toNat_lt)
      have same : padding (a :: b :: c :: rest).length = padding rest.length := by
        simp only [padding, List.length_cons]
        congr 1
        omega
      refine ⟨base64Digit (a >>> 2) :: base64Digit (((a &&& 0x03) <<< 4) ||| (b >>> 4)) ::
        base64Digit (((b &&& 0x0f) <<< 2) ||| (c >>> 6)) :: base64Digit (c &&& 0x3f) :: digits, ?_, ?_⟩
      · rw [same, base64Encode, text]
        rfl
      · intro d member
        simp only [List.mem_cons] at member
        rcases member with rfl | rfl | rfl | rfl | later
        · apply base64Digit_mem
          rw [digit_first]
          omega
        · apply base64Digit_mem
          rw [digit_second]
          omega
        · apply base64Digit_mem
          rw [digit_third]
          omega
        · apply base64Digit_mem
          rw [low_toNat]
          omega
        · exact inside d later
  | [a, b] => by
      have bytes := And.intro a.toNat_lt b.toNat_lt
      refine ⟨[base64Digit (a >>> 2), base64Digit (((a &&& 0x03) <<< 4) ||| (b >>> 4)),
        base64Digit ((b &&& 0x0f) <<< 2)], rfl, ?_⟩
      intro d member
      simp only [List.mem_cons, List.not_mem_nil, or_false] at member
      rcases member with rfl | rfl | rfl
      · apply base64Digit_mem
        rw [digit_first]
        omega
      · apply base64Digit_mem
        rw [digit_second]
        omega
      · apply base64Digit_mem
        rw [digit_padded_third]
        omega
  | [a] => by
      have byte := a.toNat_lt
      refine ⟨[base64Digit (a >>> 2), base64Digit ((a &&& 0x03) <<< 4)], rfl, ?_⟩
      intro d member
      simp only [List.mem_cons, List.not_mem_nil, or_false] at member
      rcases member with rfl | rfl
      · apply base64Digit_mem
        rw [digit_first]
        omega
      · apply base64Digit_mem
        rw [digit_padded_second]
        omega
  | [] => ⟨[], rfl, fun _ member => absurd member List.not_mem_nil⟩

theorem base64Encode_alphabet (input : List UInt8) :
    ∀ b ∈ base64Encode input, b ∈ base64Table ∨ b = 61 := by
  intro b member
  obtain ⟨digits, text, inside⟩ := base64Encode_digits input
  rw [text, List.mem_append] at member
  rcases member with digit | pad
  · exact .inl (inside b digit)
  · exact .inr (List.eq_of_mem_replicate pad)

/-! ## The decoder -/

/-- The value of a digit, by the table of RFC 4648. -/
def base64Value (c : UInt8) : Option Nat :=
  if 65 ≤ c ∧ c ≤ 90 then some (c.toNat - 65)
  else if 97 ≤ c ∧ c ≤ 122 then some (c.toNat - 97 + 26)
  else if 48 ≤ c ∧ c ≤ 57 then some (c.toNat - 48 + 52)
  else if c = 43 then some 62
  else if c = 47 then some 63
  else none

/-- Four digits are the 24 bits of three bytes. -/
def decodeFour (a b c d : UInt8) : Option (List UInt8) := do
  let x ← base64Value a
  let y ← base64Value b
  let z ← base64Value c
  let u ← base64Value d
  return bytesOf 3 (((x * 64 + y) * 64 + z) * 64 + u)

/-- Three digits and a pad are two bytes and two zero bits. -/
def decodeThree (a b c : UInt8) : Option (List UInt8) := do
  let x ← base64Value a
  let y ← base64Value b
  let z ← base64Value c
  let value := (x * 64 + y) * 64 + z
  if value % 4 = 0 then return bytesOf 2 (value / 4) else none

/-- Two digits and two pads are one byte and four zero bits. -/
def decodeTwo (a b : UInt8) : Option (List UInt8) := do
  let x ← base64Value a
  let y ← base64Value b
  let value := x * 64 + y
  if value % 16 = 0 then return bytesOf 1 (value / 16) else none

/-- A pad stands only at the end of the text. -/
def base64Decode : List UInt8 → Option (List UInt8)
  | [] => some []
  | [a, b, c, d] =>
      if d = 61 then if c = 61 then decodeTwo a b else decodeThree a b c
      else decodeFour a b c d
  | a :: b :: c :: d :: rest => do
      let bytes ← decodeFour a b c d
      let later ← base64Decode rest
      return bytes ++ later
  | _ => none

theorem base64Value_digit {n : UInt8} (small : n.toNat < 64) :
    base64Value (base64Digit n) = some n.toNat := by
  have all : ∀ k : Fin 64, base64Value (base64Digit (UInt8.ofNat k.val)) = some k.val := by
    decide +kernel
  have here := all ⟨n.toNat, small⟩
  rwa [UInt8.ofNat_toNat] at here

theorem base64Digit_ne_pad {n : UInt8} (small : n.toNat < 64) : base64Digit n ≠ 61 := by
  intro pad
  have value := base64Value_digit small
  rw [pad] at value
  cases value

section Groups

variable (a b c : UInt8)

theorem decodeFour_encode :
    decodeFour (base64Digit (a >>> 2)) (base64Digit (((a &&& 0x03) <<< 4) ||| (b >>> 4)))
      (base64Digit (((b &&& 0x0f) <<< 2) ||| (c >>> 6))) (base64Digit (c &&& 0x3f)) =
      some [a, b, c] := by
  have bytes := And.intro a.toNat_lt (And.intro b.toNat_lt c.toNat_lt)
  have first := digit_first a
  have second := digit_second a b
  have third := digit_third b c
  have fourth := low_toNat c
  have value : (((a.toNat / 4 * 64 + (a.toNat % 4 * 16 + b.toNat / 16)) * 64 +
      (b.toNat % 16 * 4 + c.toNat / 64)) * 64 + c.toNat % 64) = natOf [a, b, c] := by
    simp only [natOf, List.length_cons, List.length_nil]
    omega
  unfold decodeFour
  rw [base64Value_digit (by omega), base64Value_digit (by omega), base64Value_digit (by omega),
    base64Value_digit (by omega), first, second, third, fourth]
  simp only [Option.bind_eq_bind, Option.bind_some, value]
  exact congrArg some (bytesOf_natOf [a, b, c])

theorem decodeThree_encode :
    decodeThree (base64Digit (a >>> 2)) (base64Digit (((a &&& 0x03) <<< 4) ||| (b >>> 4)))
      (base64Digit ((b &&& 0x0f) <<< 2)) = some [a, b] := by
  have bytes := And.intro a.toNat_lt b.toNat_lt
  have first := digit_first a
  have second := digit_second a b
  have third := digit_padded_third b
  have value : (a.toNat / 4 * 64 + (a.toNat % 4 * 16 + b.toNat / 16)) * 64 + b.toNat % 16 * 4 =
      4 * natOf [a, b] := by
    simp only [natOf, List.length_cons, List.length_nil]
    omega
  unfold decodeThree
  rw [base64Value_digit (by omega), base64Value_digit (by omega), base64Value_digit (by omega),
    first, second, third]
  simp only [Option.bind_eq_bind, Option.bind_some, value, Nat.mul_mod_right, if_true,
    Nat.mul_div_cancel_left _ (show 0 < 4 by decide)]
  exact congrArg some (bytesOf_natOf [a, b])

theorem decodeTwo_encode :
    decodeTwo (base64Digit (a >>> 2)) (base64Digit ((a &&& 0x03) <<< 4)) = some [a] := by
  have byte := a.toNat_lt
  have first := digit_first a
  have second := digit_padded_second a
  have value : a.toNat / 4 * 64 + a.toNat % 4 * 16 = 16 * natOf [a] := by
    simp only [natOf, List.length_nil]
    omega
  unfold decodeTwo
  rw [base64Value_digit (by omega), base64Value_digit (by omega), first, second]
  simp only [Option.bind_eq_bind, Option.bind_some, value, Nat.mul_mod_right, if_true,
    Nat.mul_div_cancel_left _ (show 0 < 16 by decide)]
  exact congrArg some (bytesOf_natOf [a])

end Groups

/-- **The decoder reads back what the encoder wrote**: induction over the groups of three. -/
theorem base64Decode_encode : ∀ input : List UInt8, base64Decode (base64Encode input) = some input
  | a :: b :: c :: rest => by
      have ih := base64Decode_encode rest
      have group := decodeFour_encode a b c
      have byte := c.toNat_lt
      have low := low_toNat c
      rw [base64Encode]
      cases tail : base64Encode rest with
      | nil =>
          -- the last group is a full one
          rw [tail] at ih
          obtain rfl : [] = rest := Option.some.inj ih
          rw [base64Decode, if_neg (base64Digit_ne_pad (by omega)), group]
      | cons d more =>
          rw [tail] at ih
          rw [base64Decode, group, ih]
          · rfl
          · intro absent
            cases absent
  | [a, b] => by
      have byte := b.toNat_lt
      have third := digit_padded_third b
      rw [base64Encode, base64Decode, if_pos rfl, if_neg (base64Digit_ne_pad (by omega))]
      exact decodeThree_encode a b
  | [a] => by
      rw [base64Encode, base64Decode, if_pos rfl, if_pos rfl]
      exact decodeTwo_encode a
  | [] => rfl

theorem base64Encode_injective {u v : List UInt8} (same : base64Encode u = base64Encode v) : u = v := by
  have decoded := congrArg base64Decode same
  rw [base64Decode_encode, base64Decode_encode] at decoded
  exact Option.some.inj decoded

/-- **`base64_encode` is RFC 4648.**  Of an array of any size: the text fills the output array,
consists of digits with the padding behind them, and decodes to the array; two arrays of one size
have different texts. -/
theorem base64_rfc4648 (M : Nat) (input : Vector UInt8 M) :
    (base64Encode input.toList).length = 4 * ((M + 2) / 3) ∧
      (∃ digits, base64Encode input.toList = digits ++ List.replicate ((3 - M % 3) % 3) 61 ∧
        ∀ d ∈ digits, d ∈ base64Table) ∧
      base64Decode (base64Encode input.toList) = some input.toList ∧
      ∀ other : Vector UInt8 M, base64Encode other.toList = base64Encode input.toList →
        other = input := by
  have size : input.toList.length = M := input.length_toList
  refine ⟨?_, ?_, base64Decode_encode input.toList, ?_⟩
  · rw [base64Encode_length, size]
  · have digits := base64Encode_digits input.toList
    rw [size] at digits
    exact digits
  · intro other same
    exact Vector.toList_inj.mp (base64Encode_injective same)

/-- Four bytes: one group, and a tail of one byte with two pads. -/
theorem base64_rfc4648_four :
    base64Encode [0, 16, 131, 255] = stringBytes "ABCD/w==" ∧
      base64Decode (stringBytes "ABCD/w==") = some [0, 16, 131, 255] := by
  have text : base64Encode [0, 16, 131, 255] = stringBytes "ABCD/w==" := by decide
  have contract := base64_rfc4648 4 #v[0, 16, 131, 255]
  refine ⟨text, ?_⟩
  rw [← text]
  exact contract.2.2.1

end Manet.Protocol
