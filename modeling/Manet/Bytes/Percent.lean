/-
# Manet.Bytes.Percent — percent escapes

`escape plain` writes the bytes that are `plain` as they are, a plain percent sign twice, and
every other byte as a percent sign and two hexadecimal digits; `unescape` reads a text back.  A
percent sign is not a digit, so what begins a code decides how long it is, and the decoder takes
each code off the front whatever follows (`reads_escapeByte`).  Any choice of plain bytes is
therefore reversible (`unescape_escape`), and the text is in any alphabet that has the plain bytes,
the percent sign and the digits (`mem_escape`).
-/
import Mathlib.Data.Set.Function

namespace Manet.Bytes

set_option autoImplicit false

/-! ## Codes that are read off the front -/

section Codes

variable {α β : Type} {encode : α → List β} {decode : List β → List α}

/-- `decode` takes the code of `a` off the front of anything. -/
def Reads (decode : List β → List α) (encode : α → List β) (a : α) : Prop :=
  ∀ rest, decode (encode a ++ rest) = a :: decode rest

/-- Codes written one behind the other are read back. -/
theorem leftInvOn_flatMap (empty : decode [] = []) :
    Set.LeftInvOn decode (List.flatMap encode) {s | ∀ a ∈ s, Reads decode encode a} := by
  intro s reads
  induction s with
  | nil => exact empty
  | cons a s ih =>
      obtain ⟨first, later⟩ := List.forall_mem_cons.mp reads
      rw [List.flatMap_cons, first, ih later]

end Codes

/-! ## Bytes and their digits -/

/-- A fact about every byte, checked value by value. -/
theorem forall_byte {p : UInt8 → Prop} (holds : ∀ n < 256, p (UInt8.ofNat n)) (b : UInt8) : p b := by
  have here := holds b.toNat b.toNat_lt
  rwa [UInt8.ofNat_toNat] at here

/-- The hexadecimal digits, in small letters. -/
def hexDigits : List UInt8 :=
  [48, 49, 50, 51, 52, 53, 54, 55, 56, 57, 97, 98, 99, 100, 101, 102]

def hexDigit (n : Nat) : UInt8 := hexDigits.getD n 0

/-- The value of a digit, in small or capital letters. -/
def hexValue (c : UInt8) : Option Nat :=
  if 48 ≤ c ∧ c ≤ 57 then some (c.toNat - 48)
  else if 97 ≤ c ∧ c ≤ 102 then some (c.toNat - 87)
  else if 65 ≤ c ∧ c ≤ 70 then some (c.toNat - 55)
  else none

theorem hexValue_hexDigit : ∀ n < 16, hexValue (hexDigit n) = some n := by
  decide

theorem hexDigit_mem : ∀ n < 16, hexDigit n ∈ hexDigits := by
  decide

theorem hexValue_percent : hexValue 37 = none := by
  decide

/-! ## Escaping -/

section Escape

variable (plain : UInt8 → Bool)

/-- The code of one byte; 37 is the percent sign. -/
def escapeByte (b : UInt8) : List UInt8 :=
  if plain b = false then [37, hexDigit (b.toNat / 16), hexDigit (b.toNat % 16)]
  else if b = 37 then [37, 37]
  else [b]

def escape (s : List UInt8) : List UInt8 := s.flatMap (escapeByte plain)

end Escape

/-- Two percent signs are one, a percent sign and two digits are the byte with these digits, and
anything else is itself. -/
def unescape : List UInt8 → List UInt8
  | 37 :: 37 :: rest => 37 :: unescape rest
  | 37 :: h :: l :: rest =>
      match hexValue h, hexValue l with
      | some high, some low => UInt8.ofNat (high * 16 + low) :: unescape rest
      | _, _ => 37 :: unescape (h :: l :: rest)
  | c :: rest => c :: unescape rest
  | [] => []

theorem unescape_plain {c : UInt8} (other : c ≠ 37) (rest : List UInt8) :
    unescape (c :: rest) = c :: unescape rest := by
  rw [unescape]
  · rintro _ rfl
    exact absurd rfl other
  · rintro _ _ _ rfl
    exact absurd rfl other

theorem unescape_hex {h l : UInt8} {high low : Nat} (first : hexValue h = some high)
    (second : hexValue l = some low) (rest : List UInt8) :
    unescape (37 :: h :: l :: rest) = UInt8.ofNat (high * 16 + low) :: unescape rest := by
  have digit : h ≠ 37 := by
    rintro rfl
    rw [hexValue_percent] at first
    cases first
  rw [unescape, first, second]
  exact digit

section Escape

variable {plain : UInt8 → Bool}

/-- **One code** is read off the front of anything. -/
theorem reads_escapeByte (b : UInt8) : Reads unescape (escapeByte plain) b := by
  intro rest
  unfold escapeByte
  split
  · have byte : b.toNat < 256 := b.toNat_lt
    have high := hexValue_hexDigit (b.toNat / 16) (by omega)
    have low := hexValue_hexDigit (b.toNat % 16) (by omega)
    have whole : b.toNat / 16 * 16 + b.toNat % 16 = b.toNat := by omega
    rw [List.cons_append, List.cons_append, List.cons_append, List.nil_append,
      unescape_hex high low, whole, UInt8.ofNat_toNat]
  split
  · rename_i sign
    rw [sign]
    exact unescape.eq_1 rest
  · rename_i other
    exact unescape_plain other rest

/-- **Every text is read back**, whatever is plain. -/
theorem unescape_escape (s : List UInt8) : unescape (escape plain s) = s :=
  leftInvOn_flatMap rfl fun b _ => reads_escapeByte b

theorem escape_injective : Function.Injective (escape plain) :=
  Function.LeftInverse.injective unescape_escape

/-- The alphabet of an escaped text. -/
theorem mem_escape {p : UInt8 → Prop} (sign : p 37) (digits : ∀ d ∈ hexDigits, p d)
    (plains : ∀ b, plain b = true → p b) (s : List UInt8) : ∀ c ∈ escape plain s, p c := by
  intro c member
  obtain ⟨b, -, code⟩ := List.mem_flatMap.mp member
  have byte : b.toNat < 256 := b.toNat_lt
  unfold escapeByte at code
  split at code
  · simp only [List.mem_cons, List.not_mem_nil, or_false] at code
    rcases code with rfl | rfl | rfl
    · exact sign
    · exact digits _ (hexDigit_mem _ (by omega))
    · exact digits _ (hexDigit_mem _ (by omega))
  rename_i shown
  split at code
  · simp only [List.mem_cons, List.not_mem_nil, or_false, or_self] at code
    rw [code]
    exact sign
  · rw [List.mem_singleton] at code
    rw [code]
    exact plains b (eq_true_of_ne_false shown)

end Escape

end Manet.Bytes
