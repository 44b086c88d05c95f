/-
# Manet.Bytes.Network — numbers in network byte order

`natOf` reads bytes most significant first; `bytesOf w n` writes `n` in `w`
bytes.  `natOf_bytesOf` reads them back, `bytesOf_natOf` writes them again, and `shiftFold_toNat` is the shape
parsers write by hand: shifting an unsigned 64-bit accumulator left by a byte
and or-ing the next one in reads the same number as long as it has 64 bits.
-/
import Mathlib.Tactic.Ring

namespace Manet.Bytes

set_option autoImplicit false

/-- The number whose bytes, most significant first, are given. -/
def natOf : List UInt8 → Nat
  | [] => 0
  | b :: rest => b.toNat * 256 ^ rest.length + natOf rest

/-- The `w` low bytes of `n`, most significant first. -/
def bytesOf : Nat → Nat → List UInt8
  | 0, _ => []
  | w + 1, n => UInt8.ofNat (n / 256 ^ w) :: bytesOf w (n % 256 ^ w)

@[simp] theorem bytesOf_length (w n : Nat) : (bytesOf w n).length = w := by
  induction w generalizing n with
  | zero => rfl
  | succ w ih => simp [bytesOf, ih]

theorem natOf_lt (bytes : List UInt8) : natOf bytes < 256 ^ bytes.length := by
  induction bytes with
  | nil => simp [natOf]
  | cons b rest ih =>
      have byte : b.toNat + 1 ≤ 256 := b.toNat_lt
      have scaled := Nat.mul_le_mul_right (256 ^ rest.length) byte
      simp only [natOf, List.length_cons, pow_succ]
      calc b.toNat * 256 ^ rest.length + natOf rest
          < b.toNat * 256 ^ rest.length + 256 ^ rest.length := Nat.add_lt_add_left ih _
        _ = (b.toNat + 1) * 256 ^ rest.length := by ring
        _ ≤ 256 * 256 ^ rest.length := scaled
        _ = 256 ^ rest.length * 256 := Nat.mul_comm _ _

/-- Written in `w` bytes, a number below `256 ^ w` is read back. -/
theorem natOf_bytesOf {w n : Nat} (fits : n < 256 ^ w) : natOf (bytesOf w n) = n := by
  induction w generalizing n with
  | zero =>
      have : n = 0 := by simpa using fits
      simp [bytesOf, natOf, this]
  | succ w ih =>
      have positive : 0 < 256 ^ w := Nat.pow_pos (by decide)
      have digit : n / 256 ^ w < 256 := by
        rw [Nat.div_lt_iff_lt_mul positive, Nat.mul_comm]
        simpa [pow_succ] using fits
      have low : n % 256 ^ w < 256 ^ w := Nat.mod_lt _ positive
      have byte : (UInt8.ofNat (n / 256 ^ w)).toNat = n / 256 ^ w := by
        rw [UInt8.toNat_ofNat']
        exact Nat.mod_eq_of_lt digit
      simp only [bytesOf, natOf, bytesOf_length, byte, ih low]
      exact Nat.div_add_mod' n (256 ^ w)

/-- Bytes that were read are written again. -/
theorem bytesOf_natOf (bytes : List UInt8) : bytesOf bytes.length (natOf bytes) = bytes := by
  induction bytes with
  | nil => rfl
  | cons b rest ih =>
      have low := natOf_lt rest
      have positive : 0 < 256 ^ rest.length := Nat.pow_pos (by decide)
      have high : (b.toNat * 256 ^ rest.length + natOf rest) / 256 ^ rest.length = b.toNat := by
        rw [Nat.mul_comm, Nat.mul_add_div positive, Nat.div_eq_of_lt low, Nat.add_zero]
      have tail : (b.toNat * 256 ^ rest.length + natOf rest) % 256 ^ rest.length = natOf rest := by
        rw [Nat.mul_comm, Nat.mul_add_mod, Nat.mod_eq_of_lt low]
      simp only [List.length_cons, bytesOf, natOf, high, tail, ih, UInt8.ofNat_toNat]

/-- Shift a byte into a 64-bit accumulator. -/
def shiftIn (x : UInt64) (b : UInt8) : UInt64 := (x <<< 8) ||| b.toUInt64

theorem shiftIn_toNat {x : UInt64} (b : UInt8) (room : x.toNat < 2 ^ 56) :
    (shiftIn x b).toNat = x.toNat * 256 + b.toNat := by
  have byte : b.toNat < 2 ^ 8 := b.toNat_lt
  have shifted : (x <<< 8).toNat = x.toNat <<< 8 := by
    rw [UInt64.toNat_shiftLeft]
    simp only [Nat.shiftLeft_eq]
    exact Nat.mod_eq_of_lt (by simp; omega)
  simp only [shiftIn, UInt64.toNat_or, shifted, UInt8.toNat_toUInt64]
  rw [← Nat.shiftLeft_add_eq_or_of_lt byte, Nat.shiftLeft_eq]

/-- The hand-written parser of a length field reads the number. -/
theorem shiftFold_toNat (bytes : List UInt8) (x : UInt64)
    (room : x.toNat * 256 ^ bytes.length + natOf bytes < 2 ^ 64) :
    (bytes.foldl shiftIn x).toNat = x.toNat * 256 ^ bytes.length + natOf bytes := by
  induction bytes generalizing x with
  | nil => simp [natOf]
  | cons b rest ih =>
      have one : 1 ≤ 256 ^ rest.length := Nat.one_le_pow _ _ (by decide)
      simp only [List.length_cons, natOf, pow_succ] at room ⊢
      have high : x.toNat * 256 ≤ x.toNat * (256 ^ rest.length * 256) :=
        Nat.mul_le_mul_left _ (Nat.le_mul_of_pos_left _ one)
      have step := shiftIn_toNat b (show x.toNat < 2 ^ 56 by omega)
      have regroup : (shiftIn x b).toNat * 256 ^ rest.length + natOf rest =
          x.toNat * (256 ^ rest.length * 256) + (b.toNat * 256 ^ rest.length + natOf rest) := by
        rw [step]
        ring
      rw [List.foldl_cons, ih _ (by rw [regroup]; exact room), regroup]

end Manet.Bytes
