/-
# Manet.Utils.Hexdump — when `readable_ascii` can be read back

`readable_ascii` (`utils/hexdump.cc`) prints bytes; the tests show with it what a connection has
sent.  It is a percent escape with the printable characters plain, and reversible as every percent
escape is, but it takes its digits from a signed `char`: from 0x80 on the character is negative,
and so is `c >> 4`, which indexes the table of the digits.  What is read in front of the table,
and what `std::isprint` answers for such a character, is left open by the standard and is a
parameter here (`Undefined`).  Whatever the parameter is, the text can be read back exactly when
every byte is below 0x80 (`reversible_iff`).
-/
import Mathlib.Data.List.Basic
import Manet.Bytes.Percent

namespace Manet.Utils

open Manet.Bytes

set_option autoImplicit false

/-! ## The source -/

/-- What a platform does where the standard leaves it open: `std::isprint` of a negative value
other than `EOF`, and reads outside the table. -/
structure Undefined where
  isprint : Int32 → Bool
  beside : Int32 → UInt8

/-- `input_str[i]`, a signed `char`, as the `int` it is wherever it is used. -/
def char (b : UInt8) : Int32 := b.toInt8.toInt32

/-- `static const char *hex` -/
def hex : List UInt8 := "0123456789abcdef".toList.map fun c => c.toNat.toUInt8

/-- `str`, and the indices at which the table has been read for it. -/
structure Ascii where
  str : List UInt8
  indices : List Int32
  deriving DecidableEq, Repr

section Source

variable (U : Undefined)

/-- `std::isprint` in the C locale; `EOF` is -1. -/
def isprint (c : Int32) : Bool :=
  if c < -1 then U.isprint c else 0x20 ≤ c ∧ c ≤ 0x7e

/-- `hex[i]` -/
def hexAt (i : Int32) : UInt8 :=
  if 0 ≤ i ∧ i ≤ 15 then hex.getD i.toInt.toNat 0 else U.beside i

/-- One turn of the loop. -/
def readableByte (out : Ascii) (b : UInt8) : Ascii :=
  let c := char b
  if isprint U c = false then
    { str := out.str ++ [37, hexAt U (c >>> 4), hexAt U (c &&& 0x0F)]
      indices := out.indices ++ [c >>> 4, c &&& 0x0F] }
  else if c = 37 then { out with str := out.str ++ [37, 37] }
  else { out with str := out.str ++ [c.toInt8.toUInt8] }

def readable (input : List UInt8) : Ascii := input.foldl (readableByte U) ⟨[], []⟩

def readableAscii (input : List UInt8) : List UInt8 := (readable U input).str

def hexIndices (input : List UInt8) : List Int32 := (readable U input).indices

end Source

/-! ## The loop -/

section Loop

variable {U : Undefined}

/-- What a byte adds. -/
def coded (U : Undefined) (b : UInt8) : Ascii := readableByte U ⟨[], []⟩ b

theorem readableByte_coded (out : Ascii) (b : UInt8) :
    readableByte U out b = ⟨out.str ++ (coded U b).str, out.indices ++ (coded U b).indices⟩ := by
  unfold coded readableByte
  dsimp only
  split
  · simp
  split <;> simp

theorem readable_coded (input : List UInt8) :
    readable U input =
      ⟨input.flatMap fun b => (coded U b).str, input.flatMap fun b => (coded U b).indices⟩ := by
  have general : ∀ (input : List UInt8) (out : Ascii), input.foldl (readableByte U) out =
      ⟨out.str ++ input.flatMap fun b => (coded U b).str,
        out.indices ++ input.flatMap fun b => (coded U b).indices⟩ := by
    intro input
    induction input with
    | nil =>
        intro out
        simp
    | cons b rest ih =>
        intro out
        rw [List.foldl_cons, ih, readableByte_coded]
        simp
  exact general input ⟨[], []⟩

end Loop

/-! ## The character as a number -/

theorem char_value : ∀ b : UInt8,
    (char b).toInt = if b.toNat < 128 then (b.toNat : Int) else (b.toNat : Int) - 256 :=
  forall_byte (by decide +kernel)

theorem char_high : ∀ b : UInt8, (char b >>> 4).toInt = (char b).toInt / 16 :=
  forall_byte (by decide +kernel)

theorem char_low : ∀ b : UInt8, (char b &&& 0x0F).toInt = (char b).toInt % 16 :=
  forall_byte (by decide +kernel)

theorem char_byte : ∀ b : UInt8, (char b).toInt8.toUInt8 = b :=
  forall_byte (by decide +kernel)

theorem char_percent : ∀ b : UInt8, char b = 37 ↔ b = 37 :=
  forall_byte (by decide +kernel)

/-! ## Byte by byte -/

/-- What ASCII can show. -/
def printable (b : UInt8) : Bool := 0x20 ≤ b ∧ b ≤ 0x7e

/-- An index of the table. -/
def InTable (i : Int32) : Prop := 0 ≤ i ∧ i ≤ 15

section Bytes

variable {U : Undefined} {b : UInt8}

theorem inTable_iff {i : Int32} : InTable i ↔ 0 ≤ i.toInt ∧ i.toInt ≤ 15 := by
  unfold InTable
  rw [Int32.le_iff_toInt_le, Int32.le_iff_toInt_le]
  exact Iff.rfl

theorem hexAt_digit {i : Int32} {n : Nat} (value : i.toInt = n) (small : n < 16) :
    hexAt U i = hexDigit n := by
  have inside : InTable i := inTable_iff.mpr (by omega)
  have table : hex = hexDigits := by decide
  rw [hexAt, if_pos (show 0 ≤ i ∧ i ≤ 15 from inside), value, Int.toNat_natCast, table]
  rfl

/-- The character below 0x80 is the byte. -/
theorem ascii_value (ascii : b < 0x80) : (char b).toInt = b.toNat := by
  have small : b.toNat < 128 := UInt8.lt_iff_toNat_lt.mp ascii
  rw [char_value, if_pos small]

theorem isprint_ascii (ascii : b < 0x80) : isprint U (char b) = printable b := by
  have value := ascii_value ascii
  have defined : ¬ char b < -1 := by
    rw [Int32.lt_iff_toInt_lt, value]
    show ¬ (b.toNat : Int) < -1
    omega
  rw [isprint, if_neg defined, printable]
  congr 1
  rw [Int32.le_iff_toInt_le, Int32.le_iff_toInt_le, value, UInt8.le_iff_toNat_le,
    UInt8.le_iff_toNat_le]
  show ((32 : Int) ≤ b.toNat ∧ (b.toNat : Int) ≤ 126) = (32 ≤ b.toNat ∧ b.toNat ≤ 126)
  apply propext
  omega

/-- **A byte below 0x80** is escaped, from inside the table. -/
theorem coded_ascii (ascii : b < 0x80) :
    (coded U b).str = escapeByte printable b ∧ ∀ i ∈ (coded U b).indices, InTable i := by
  have value := ascii_value ascii
  have small : b.toNat < 128 := UInt8.lt_iff_toNat_lt.mp ascii
  have high : (char b >>> 4).toInt = (b.toNat / 16 : Nat) := by
    rw [char_high, value]
    rfl
  have low : (char b &&& 0x0F).toInt = (b.toNat % 16 : Nat) := by
    rw [char_low, value]
    rfl
  unfold coded readableByte escapeByte
  simp only [isprint_ascii ascii, char_percent, char_byte, hexAt_digit high (by omega),
    hexAt_digit low (by omega)]
  split
  · refine ⟨rfl, ?_⟩
    simp only [List.nil_append, List.forall_mem_cons, inTable_iff, high, low]
    exact ⟨by omega, by omega, fun _ none => absurd none List.not_mem_nil⟩
  split
  · exact ⟨rfl, fun _ none => absurd none List.not_mem_nil⟩
  · exact ⟨rfl, fun _ none => absurd none List.not_mem_nil⟩

/-- **A byte from 0x80 on** is written as it is, or read for in front of the table. -/
theorem coded_high (high : ¬ b < 0x80) :
    (∃ i ∈ (coded U b).indices, ¬ InTable i) ∨ b ∈ (coded U b).str := by
  have large : 128 ≤ b.toNat := Nat.le_of_not_lt fun small => high (UInt8.lt_iff_toNat_lt.mpr small)
  have byte : b.toNat < 256 := b.toNat_lt
  unfold coded readableByte
  dsimp only
  split
  · refine .inl ⟨char b >>> 4, List.mem_cons_self, ?_⟩
    rw [inTable_iff, char_high, char_value, if_neg (Nat.not_lt.mpr large)]
    omega
  split
  · rename_i sign
    rw [char_percent] at sign
    rw [sign] at large
    cases Nat.not_le.mpr (by decide : (37 : UInt8).toNat < 128) large
  · rw [char_byte]
    exact .inr List.mem_cons_self

end Bytes

/-! ## Texts -/

/-- `readable_ascii` of `s` indexes its table inside, is printable, is read back as `s`, and is
the text of no other string of ASCII. -/
structure Reversible (U : Undefined) (s : List UInt8) : Prop where
  inside : ∀ i ∈ hexIndices U s, InTable i
  shown : ∀ c ∈ readableAscii U s, printable c = true
  recovered : unescape (readableAscii U s) = s
  alone : ∀ t : List UInt8, (∀ b ∈ t, b < 0x80) → readableAscii U t = readableAscii U s → t = s

section Texts

variable {U : Undefined} {s : List UInt8}

theorem readableAscii_eq_escape (ascii : ∀ b ∈ s, b < 0x80) :
    readableAscii U s = escape printable s := by
  rw [readableAscii, readable_coded, escape]
  exact List.flatMap_congr fun b member => (coded_ascii (ascii b member)).1

theorem hexIndices_inside (ascii : ∀ b ∈ s, b < 0x80) : ∀ i ∈ hexIndices U s, InTable i := by
  intro i member
  rw [hexIndices, readable_coded] at member
  obtain ⟨b, inside, here⟩ := List.mem_flatMap.mp member
  exact (coded_ascii (ascii b inside)).2 i here

theorem reversible_of_ascii (ascii : ∀ b ∈ s, b < 0x80) : Reversible U s where
  inside := hexIndices_inside ascii
  shown := by
    have digits : hexDigits.all printable = true := by decide
    rw [readableAscii_eq_escape ascii]
    exact mem_escape (by decide) (List.all_eq_true.mp digits) (fun _ => id) s
  recovered := by
    rw [readableAscii_eq_escape ascii]
    exact unescape_escape s
  alone t ascii' alike := by
    rw [readableAscii_eq_escape ascii, readableAscii_eq_escape ascii'] at alike
    exact escape_injective alike

theorem ascii_of_reversible (reversible : Reversible U s) : ∀ b ∈ s, b < 0x80 := by
  intro b member
  by_contra high
  rcases coded_high (U := U) high with ⟨i, read, outside⟩ | written
  · refine outside (reversible.inside i ?_)
    rw [hexIndices, readable_coded]
    exact List.mem_flatMap.mpr ⟨b, member, read⟩
  · have shown := reversible.shown b (by
      rw [readableAscii, readable_coded]
      exact List.mem_flatMap.mpr ⟨b, member, written⟩)
    have range : b ≤ 0x7e := (of_decide_eq_true shown).2
    apply high
    rw [UInt8.lt_iff_toNat_lt]
    exact Nat.lt_of_le_of_lt (UInt8.le_iff_toNat_le.mp range) (by decide)

end Texts

/-- **`readable_ascii` is reversible exactly on ASCII**, whatever the platform does with the
rest. -/
theorem reversible_iff (U : Undefined) (s : List UInt8) :
    Reversible U s ↔ ∀ b ∈ s, b < 0x80 :=
  ⟨ascii_of_reversible, reversible_of_ascii⟩

/-- A platform on which no negative character is printable, with zeros around the table. -/
def zeros : Undefined := ⟨fun _ => false, fun _ => 0⟩

/-- The byte 0xff is `EOF` for `std::isprint`, so every platform looks it up, at -1.  With zeros
there its text is not printable, is not read back, and is that of 0xef. -/
theorem high_byte_garbled :
    (∀ U, hexIndices U [0xff] = [-1, 15]) ∧
      readableAscii zeros [0xff] = [37, 0, 102] ∧
      unescape (readableAscii zeros [0xff]) ≠ [0xff] ∧
      readableAscii zeros [0xef] = readableAscii zeros [0xff] := by
  constructor
  · intro U
    rfl
  · decide +kernel

end Manet.Utils
