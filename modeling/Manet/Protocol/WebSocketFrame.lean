/-
# Manet.Protocol.WebSocketFrame — the server frame parser

`parse_frame` (`protocol/websocket_frame.hpp`) looks at the front of the unread
bytes and reports one frame, or that it needs more, or that the server broke a
rule.  A payload is a view: `std::span` keeps the count it was built with, so
`Span` carries the count next to the bytes that are really there.

`wireHeader` is the format's own reading of a header, in unbounded arithmetic.
`parseFrame_eq` computes the parser from it: everything agrees except the
completeness test, which adds header and payload length modulo `2 ^ 64`, and the
view of a payload whose length is `std::dynamic_extent`.  So the parser is exact
unless that sum wraps (`parseFrame_contained_iff`), and while it does not wrap
the answer on a stream only ever changes from "need more" (`parseFrame_append`).
-/
import Mathlib.Data.Nat.Bitwise
import Manet.Bytes.Network

namespace Manet.Protocol

open Manet.Bytes

set_option autoImplicit false

/-- `OpCode`.  The conversion from four bits can also produce the values the
enumeration does not name. -/
inductive OpCode where
  | cont
  | text
  | binary
  | close
  | ping
  | pong
  | reserved (code : UInt8)
  deriving DecidableEq, Repr

/-- `static_cast<OpCode>` -/
def OpCode.ofNibble (code : UInt8) : OpCode :=
  if code = 0x0 then .cont
  else if code = 0x1 then .text
  else if code = 0x2 then .binary
  else if code = 0x8 then .close
  else if code = 0x9 then .ping
  else if code = 0xA then .pong
  else .reserved code

def OpCode.toByte : OpCode → UInt8
  | .cont => 0x0
  | .text => 0x1
  | .binary => 0x2
  | .close => 0x8
  | .ping => 0x9
  | .pong => 0xA
  | .reserved code => code

/-- A `std::span<const std::byte>`: the bytes in reach, and the count it claims. -/
structure Span where
  bytes : List UInt8
  size : Nat
  deriving DecidableEq, Repr

/-- `std::dynamic_extent`, which is `std::size_t(-1)`. -/
def dynamicExtent : Nat := 2 ^ 64 - 1

/-- `in.subspan(offset, count)`.  For `std::dynamic_extent` it is the rest of the span.
Out of range it is undefined; the span then still claims `count` bytes. -/
def subspan (input : List UInt8) (offset count : Nat) : Span :=
  if count = dynamicExtent then ⟨input.drop offset, input.length - offset⟩
  else ⟨(input.drop offset).take count, count⟩

structure FrameView where
  op : OpCode
  fin : Bool
  payload : Span
  payloadLen : Nat
  deriving DecidableEq, Repr

structure ParseOutput where
  frame : FrameView
  consumed : Nat
  deriving DecidableEq, Repr

/-- `parse_status`, with the output parameter of the `ok` case. -/
inductive ParseResult where
  | ok (out : ParseOutput)
  | needMore
  | maskedServer
  | badReserved
  deriving DecidableEq, Repr

def finBit (b0 : UInt8) : Bool := b0 &&& 0x80 ≠ 0

def rsv (b0 : UInt8) : UInt8 := (b0 >>> 4) &&& 0x7

def toOp (b0 : UInt8) : OpCode := .ofNibble (b0 &&& 0x0F)

def masked (b1 : UInt8) : Bool := b1 &&& 0x80 ≠ 0

def len7 (b1 : UInt8) : UInt8 := b1 &&& 0x7F

/-- The tail of `parse_frame`, once the length field has been read.  The sums
are `std::size_t` sums. -/
def finishFrame (input : List UInt8) (b0 : UInt8) (hdr len : UInt64) : ParseResult :=
  if input.length < (hdr + len).toNat then .needMore
  else
    .ok
      { frame :=
          { op := toOp b0
            fin := finBit b0
            payload := subspan input hdr.toNat len.toNat
            payloadLen := len.toNat }
        consumed := (hdr + len).toNat }

def parseFrame (input : List UInt8) : ParseResult :=
  if input.length < 2 then .needMore
  else
    let b0 := input.getD 0 0
    let b1 := input.getD 1 0
    if rsv b0 ≠ 0 then .badReserved
    else if masked b1 then .maskedServer
    else if len7 b1 = 126 then
      if input.length < 4 then .needMore
      else finishFrame input b0 4 (((input.getD 2 0).toUInt64 <<< 8) ||| (input.getD 3 0).toUInt64)
    else if len7 b1 = 127 then
      if input.length < 10 then .needMore
      else finishFrame input b0 10 (((input.drop 2).take 8).foldl shiftIn 0)
    else finishFrame input b0 2 (len7 b1).toUInt64

/-! ## The format -/

/-- Header length and payload length of a frame header, read exactly; `none`
while the header is incomplete. -/
def wireHeader (input : List UInt8) : Option (Nat × Nat) :=
  if input.length < 2 then none
  else
    match (input.getD 1 0).toNat % 128 with
    | 126 => if input.length < 4 then none else some (4, natOf ((input.drop 2).take 2))
    | 127 => if input.length < 10 then none else some (10, natOf ((input.drop 2).take 8))
    | len => some (2, len)

/-- The frame the format describes when its header is `(hdr, len)`. -/
def wireFrame (input : List UInt8) (hdr len : Nat) : ParseOutput :=
  { frame :=
      { op := toOp (input.getD 0 0)
        fin := finBit (input.getD 0 0)
        payload := ⟨(input.drop hdr).take len, len⟩
        payloadLen := len }
    consumed := hdr + len }

/-- The frame the parser reports when it has read the header `(hdr, len)`. -/
def reportedFrame (input : List UInt8) (hdr len : Nat) : ParseOutput :=
  { frame :=
      { op := toOp (input.getD 0 0)
        fin := finBit (input.getD 0 0)
        payload := subspan input hdr len
        payloadLen := len }
    consumed := (hdr + len) % 2 ^ 64 }

/-- What an accepted frame has to satisfy: it is wholly inside the input, and
the output describes exactly it. -/
def Contained (input : List UInt8) : Prop :=
  ∀ out, parseFrame input = .ok out →
    ∃ hdr len, wireHeader input = some (hdr, len) ∧ hdr + len ≤ input.length ∧
      out = wireFrame input hdr len ∧
      out.frame.payload.bytes = (input.drop hdr).take len ∧ out.frame.payload.size = len

/-- The 64-bit length field is so large that the frame's size is not a `size_t`. -/
def Wraps (input : List UInt8) : Prop :=
  10 ≤ input.length ∧ rsv (input.getD 0 0) = 0 ∧ input.getD 1 0 = 0x7F ∧
    2 ^ 64 ≤ 10 + natOf ((input.drop 2).take 8)

instance (input : List UInt8) : Decidable (Wraps input) := by unfold Wraps; infer_instance

/-! ## The parser computes the format, modulo the completeness test -/

theorem len7_toNat (b : UInt8) : (len7 b).toNat = b.toNat % 128 := by
  rw [len7, UInt8.toNat_and]
  exact Nat.and_two_pow_sub_one_eq_mod b.toNat 7

theorem len7_eq_iff (b : UInt8) (n : UInt8) : len7 b = n ↔ b.toNat % 128 = n.toNat := by
  rw [← UInt8.toNat_inj, len7_toNat]

theorem finishFrame_eq (input : List UInt8) (hdr len : UInt64) :
    finishFrame input (input.getD 0 0) hdr len =
      if input.length < (hdr.toNat + len.toNat) % 2 ^ 64 then .needMore
      else .ok (reportedFrame input hdr.toNat len.toNat) := by
  simp only [finishFrame, UInt64.toNat_add, reportedFrame]

/-- A frame whose size is a `size_t` is reported as it is. -/
theorem reportedFrame_eq (input : List UInt8) {hdr len : Nat} (some : 0 < hdr)
    (small : hdr + len < 2 ^ 64) : reportedFrame input hdr len = wireFrame input hdr len := by
  have counted : len ≠ dynamicExtent := by
    unfold dynamicExtent
    omega
  rw [reportedFrame, wireFrame, subspan, if_neg counted, Nat.mod_eq_of_lt small]

/-- The two bytes of a 16-bit length field. -/
theorem len16_toNat {input : List UInt8} (long : 4 ≤ input.length) :
    (((input.getD 2 0).toUInt64 <<< 8) ||| (input.getD 3 0).toUInt64).toNat =
      natOf ((input.drop 2).take 2) := by
  obtain ⟨a, b, c, d, rest, rfl⟩ : ∃ a b c d rest, input = a :: b :: c :: d :: rest := by
    match input, long with
    | a :: b :: c :: d :: rest, _ => exact ⟨a, b, c, d, rest, rfl⟩
  have byte : c.toNat < 256 := c.toNat_lt
  have shifted := shiftIn_toNat (x := c.toUInt64) d (by rw [UInt8.toNat_toUInt64]; omega)
  rw [UInt8.toNat_toUInt64] at shifted
  simpa [natOf, shiftIn] using shifted

/-- The eight bytes of a 64-bit length field. -/
theorem len64_toNat {input : List UInt8} (long : 10 ≤ input.length) :
    (((input.drop 2).take 8).foldl shiftIn 0).toNat = natOf ((input.drop 2).take 8) := by
  have width : ((input.drop 2).take 8).length = 8 := by simp; omega
  have below : natOf ((input.drop 2).take 8) < 2 ^ 64 := by
    have := natOf_lt ((input.drop 2).take 8)
    rw [width] at this
    exact this
  simpa using shiftFold_toNat ((input.drop 2).take 8) 0 (by simpa using below)

section Header

variable {input : List UInt8} (long : 2 ≤ input.length)
include long

theorem wireHeader_len7 (ne126 : (input.getD 1 0).toNat % 128 ≠ 126)
    (ne127 : (input.getD 1 0).toNat % 128 ≠ 127) :
    wireHeader input = some (2, (input.getD 1 0).toNat % 128) := by
  have notShort : ¬ input.length < 2 := by omega
  simp only [wireHeader, notShort, if_false]

theorem wireHeader_len16 (is126 : (input.getD 1 0).toNat % 128 = 126) :
    wireHeader input =
      if input.length < 4 then none else some (4, natOf ((input.drop 2).take 2)) := by
  have notShort : ¬ input.length < 2 := by omega
  simp only [wireHeader, notShort, if_false, is126]

theorem wireHeader_len64 (is127 : (input.getD 1 0).toNat % 128 = 127) :
    wireHeader input =
      if input.length < 10 then none else some (10, natOf ((input.drop 2).take 8)) := by
  have notShort : ¬ input.length < 2 := by omega
  simp only [wireHeader, notShort, if_false, is127]

end Header

/-- **The parser is the format's reading**, with header and payload length
added as `size_t` values. -/
theorem parseFrame_eq {input : List UInt8} (long : 2 ≤ input.length) :
    parseFrame input =
      if rsv (input.getD 0 0) ≠ 0 then .badReserved
      else if masked (input.getD 1 0) then .maskedServer
      else
        match wireHeader input with
        | none => .needMore
        | some (hdr, len) =>
            if input.length < (hdr + len) % 2 ^ 64 then .needMore
            else .ok (reportedFrame input hdr len) := by
  have notShort : ¬ input.length < 2 := by omega
  simp only [parseFrame, notShort, if_false]
  split
  · rfl
  split
  · rfl
  simp only [len7_eq_iff]
  -- the three header layouts, by the value of the seven-bit length
  by_cases is126 : (input.getD 1 0).toNat % 128 = 126
  · have code : (input.getD 1 0).toNat % 128 = (126 : UInt8).toNat := is126
    simp only [code, if_true, wireHeader_len16 long is126]
    by_cases short : input.length < 4
    · simp [short]
    · simp only [short, if_false, finishFrame_eq, len16_toNat (Nat.le_of_not_lt short)]
      rfl
  · have code : ¬ (input.getD 1 0).toNat % 128 = (126 : UInt8).toNat := is126
    simp only [code, if_false]
    by_cases is127 : (input.getD 1 0).toNat % 128 = 127
    · have code' : (input.getD 1 0).toNat % 128 = (127 : UInt8).toNat := is127
      simp only [code', if_true, wireHeader_len64 long is127]
      by_cases short : input.length < 10
      · simp [short]
      · simp only [short, if_false, finishFrame_eq, len64_toNat (Nat.le_of_not_lt short)]
        rfl
    · have code' : ¬ (input.getD 1 0).toNat % 128 = (127 : UInt8).toNat := is127
      simp only [code', if_false, finishFrame_eq, UInt8.toNat_toUInt64, len7_toNat,
        wireHeader_len7 long is126 is127]
      rfl

theorem masked_eq_false_iff (b : UInt8) : masked b = false ↔ b.toNat < 128 := by
  have bit : (b &&& 0x80).toNat = (b.toNat.testBit 7).toNat * 2 ^ 7 := by
    rw [UInt8.toNat_and]
    exact Nat.and_two_pow b.toNat 7
  have zero : b &&& 0x80 = 0 ↔ (b &&& 0x80).toNat = 0 := by
    rw [← UInt8.toNat_inj]
    rfl
  have byte := b.toNat_lt
  simp only [masked, ne_eq, decide_not, Bool.not_eq_false', decide_eq_true_eq, zero, bit]
  rw [Nat.testBit_eq_decide_div_mod_eq]
  by_cases high : b.toNat / 2 ^ 7 % 2 = 1
  · simp only [high, decide_true, Bool.toNat_true]
    omega
  · simp only [high, decide_false, Bool.toNat_false]
    omega

/-- What a decoded header says about the input. -/
theorem wireHeader_cases {input : List UInt8} {hdr len : Nat}
    (header : wireHeader input = some (hdr, len)) :
    2 ≤ input.length ∧ hdr ≤ input.length ∧
      (hdr = 2 ∧ len < 126 ∨ hdr = 4 ∧ len < 65536 ∨
        hdr = 10 ∧ (input.getD 1 0).toNat % 128 = 127 ∧
          len = natOf ((input.drop 2).take 8) ∧ len < 2 ^ 64) := by
  have long : 2 ≤ input.length := by
    by_contra short
    simp [wireHeader, Nat.lt_of_not_le short] at header
  refine ⟨long, ?_⟩
  have width (w : Nat) : natOf ((input.drop 2).take w) < 256 ^ w :=
    Nat.lt_of_lt_of_le (natOf_lt _) (Nat.pow_le_pow_right (by decide) (by simp))
  by_cases is126 : (input.getD 1 0).toNat % 128 = 126
  · rw [wireHeader_len16 long is126] at header
    split at header
    · cases header
    · cases header
      exact ⟨by omega, .inr (.inl ⟨rfl, width 2⟩)⟩
  by_cases is127 : (input.getD 1 0).toNat % 128 = 127
  · rw [wireHeader_len64 long is127] at header
    split at header
    · cases header
    · cases header
      exact ⟨by omega, .inr (.inr ⟨rfl, is127, rfl, width 8⟩)⟩
  · rw [wireHeader_len7 long is126 is127] at header
    cases header
    exact ⟨long, .inl ⟨rfl, by omega⟩⟩

theorem wireHeader_pos {input : List UInt8} {hdr len : Nat}
    (header : wireHeader input = some (hdr, len)) : 0 < hdr := by
  obtain ⟨-, -, layout⟩ := wireHeader_cases header
  omega

/-- Everything an accepted frame says. -/
theorem parseFrame_ok {input : List UInt8} {out : ParseOutput}
    (accepted : parseFrame input = .ok out) :
    rsv (input.getD 0 0) = 0 ∧ masked (input.getD 1 0) = false ∧
      ∃ hdr len, wireHeader input = some (hdr, len) ∧ (hdr + len) % 2 ^ 64 ≤ input.length ∧
        out = reportedFrame input hdr len := by
  have long : 2 ≤ input.length := by
    by_contra short
    rw [parseFrame, if_pos (Nat.lt_of_not_le short)] at accepted
    cases accepted
  rw [parseFrame_eq long] at accepted
  split at accepted
  · cases accepted
  rename_i clear
  split at accepted
  · cases accepted
  rename_i unmasked
  cases header : wireHeader input with
  | none => simp [header] at accepted
  | some decoded =>
      obtain ⟨hdr, len⟩ := decoded
      simp only [header] at accepted
      split at accepted
      · cases accepted
      · rename_i complete
        cases accepted
        exact ⟨by simpa using clear, by simpa using unmasked, hdr, len, rfl,
          Nat.le_of_not_lt complete, rfl⟩

/-- What an accepted frame occupies is inside the window, and its payload shows no
more bytes than it claims, also where the length wraps. -/
theorem parseFrame_within {input : List UInt8} {out : ParseOutput}
    (accepted : parseFrame input = .ok out) :
    out.consumed ≤ input.length ∧ out.frame.payload.bytes.length ≤ out.frame.payload.size := by
  obtain ⟨-, -, hdr, len, -, complete, shape⟩ := parseFrame_ok accepted
  rw [shape]
  refine ⟨complete, ?_⟩
  simp only [reportedFrame, subspan]
  split
  · exact Nat.le_of_eq (List.length_drop ..)
  · exact List.length_take_le len (input.drop hdr)

/-- A short payload has all the bytes it claims: its length does not wrap. -/
theorem parseFrame_counted {input : List UInt8} {out : ParseOutput}
    (accepted : parseFrame input = .ok out) (short : out.frame.payload.size ≤ 125) :
    out.frame.payload.bytes.length = out.frame.payload.size := by
  obtain ⟨-, -, hdr, len, header, complete, shape⟩ := parseFrame_ok accepted
  obtain ⟨-, inside, layout⟩ := wireHeader_cases header
  rw [shape] at short ⊢
  simp only [reportedFrame, subspan] at short ⊢
  by_cases rest : len = dynamicExtent
  · rw [if_pos rest]
    exact List.length_drop
  · rw [if_neg rest] at short ⊢
    dsimp only at short ⊢
    have width : hdr ≤ 10 := by omega
    rw [Nat.mod_eq_of_lt (by omega)] at complete
    rw [List.length_take, List.length_drop]
    omega

/-- Without a wrapping length field the size of an unmasked frame is a `size_t`. -/
theorem wireHeader_small {input : List UInt8} {hdr len : Nat}
    (header : wireHeader input = some (hdr, len)) (clear : rsv (input.getD 0 0) = 0)
    (unmasked : masked (input.getD 1 0) = false) (exact' : ¬ Wraps input) :
    hdr + len < 2 ^ 64 := by
  obtain ⟨-, inside, layout⟩ := wireHeader_cases header
  rcases layout with ⟨rfl, small⟩ | ⟨rfl, small⟩ | ⟨rfl, is127, rfl, -⟩
  · omega
  · omega
  · by_contra large
    have low := (masked_eq_false_iff _).mp unmasked
    refine exact' ⟨inside, clear, ?_, by omega⟩
    rw [← UInt8.toNat_inj]
    have : (127 : UInt8).toNat = 127 := rfl
    omega

theorem wraps_accepted {input : List UInt8} (wraps : Wraps input) :
    parseFrame input = .ok (reportedFrame input 10 (natOf ((input.drop 2).take 8))) := by
  obtain ⟨long, clear, second, large⟩ := wraps
  have is127 : (input.getD 1 0).toNat % 128 = 127 := by rw [second]; rfl
  have unmasked : masked (input.getD 1 0) = false := by rw [second]; rfl
  have notShort : ¬ input.length < 10 := by omega
  have below : natOf ((input.drop 2).take 8) < 256 ^ 8 :=
    Nat.lt_of_lt_of_le (natOf_lt _) (Nat.pow_le_pow_right (by decide) (by simp))
  have complete : ¬ input.length < (10 + natOf ((input.drop 2).take 8)) % 2 ^ 64 := by omega
  rw [parseFrame_eq (by omega), wireHeader_len64 (by omega) is127]
  simp only [clear, unmasked, notShort, complete, ne_eq, not_true_eq_false, if_false,
    Bool.false_eq_true]

theorem not_contained_of_wraps {input : List UInt8} (wraps : Wraps input) : ¬ Contained input := by
  intro contained
  obtain ⟨hdr, len, header, -, same, -, -⟩ := contained _ (wraps_accepted wraps)
  have counted := congrArg ParseOutput.consumed same
  simp only [reportedFrame, wireFrame] at counted
  have mod := Nat.mod_lt (10 + natOf ((input.drop 2).take 8)) (show 0 < 2 ^ 64 by decide)
  obtain ⟨long, -, second, large⟩ := wraps
  have is127 : (input.getD 1 0).toNat % 128 = 127 := by rw [second]; rfl
  rw [wireHeader_len64 (by omega) is127, if_neg (by omega)] at header
  cases header
  omega

/-- **The parser accepts only frames that are wholly in the input, exactly when
the 64-bit length field does not wrap.**  Every other header is read exactly. -/
theorem parseFrame_contained_iff (input : List UInt8) : Contained input ↔ ¬ Wraps input := by
  constructor
  · intro contained wraps
    exact not_contained_of_wraps wraps contained
  · intro exact' out accepted
    obtain ⟨clear, unmasked, hdr, len, header, complete, rfl⟩ := parseFrame_ok accepted
    have small := wireHeader_small header clear unmasked exact'
    rw [Nat.mod_eq_of_lt small] at complete
    rw [reportedFrame_eq input (wireHeader_pos header) small]
    exact ⟨hdr, len, header, complete, rfl, rfl, rfl⟩

/-- Ten bytes announcing `2 ^ 64 - 10` more are taken for a complete frame that
occupies no byte at all. -/
theorem parseFrame_not_contained :
    ¬ Contained [0x82, 0x7F, 0xFF, 0xFF, 0xFF, 0xFF, 0xFF, 0xFF, 0xFF, 0xF6] :=
  not_contained_of_wraps (by decide)

/-- At `2 ^ 64 - 1` the payload is the rest of the input, and not all of the header is consumed. -/
example : parseFrame [0x89, 0x7F, 0xFF, 0xFF, 0xFF, 0xFF, 0xFF, 0xFF, 0xFF, 0xFF, 0x61] =
    .ok ⟨⟨.ping, true, ⟨[0x61], 1⟩, 2 ^ 64 - 1⟩, 9⟩ := by decide

/-! ## Frames on a stream -/

theorem parseFrame_short {input : List UInt8} (short : input.length < 2) :
    parseFrame input = .needMore := by
  simp [parseFrame, short]

section Append

variable {input : List UInt8} (more : List UInt8)

theorem getD_append_of_lt {i : Nat} (inside : i < input.length) :
    (input ++ more).getD i 0 = input.getD i 0 := by
  simp [List.getD_eq_getElem?_getD, List.getElem?_append_left inside]

theorem window_append {i n : Nat} (inside : i + n ≤ input.length) :
    ((input ++ more).drop i).take n = (input.drop i).take n := by
  rw [List.drop_append_of_le_length (by omega), List.take_append_of_le_length (by simp; omega)]

theorem wireHeader_append {hdr len : Nat} (header : wireHeader input = some (hdr, len)) :
    wireHeader (input ++ more) = some (hdr, len) := by
  obtain ⟨long, -, -⟩ := wireHeader_cases header
  have second : (input ++ more).getD 1 0 = input.getD 1 0 := getD_append_of_lt more (by omega)
  have long' : 2 ≤ (input ++ more).length := by simp; omega
  by_cases is126 : (input.getD 1 0).toNat % 128 = 126
  · rw [wireHeader_len16 long is126] at header
    rw [wireHeader_len16 long' (by rw [second]; exact is126)]
    split at header
    · cases header
    · rw [if_neg (by simp; omega), window_append more (by omega)]
      exact header
  by_cases is127 : (input.getD 1 0).toNat % 128 = 127
  · rw [wireHeader_len64 long is127] at header
    rw [wireHeader_len64 long' (by rw [second]; exact is127)]
    split at header
    · cases header
    · rw [if_neg (by simp; omega), window_append more (by omega)]
      exact header
  · rw [wireHeader_len7 long is126 is127] at header
    rw [wireHeader_len7 long' (by rw [second]; exact is126) (by rw [second]; exact is127), second]
    exact header

theorem wraps_append (wraps : Wraps input) : Wraps (input ++ more) := by
  obtain ⟨long, clear, second, large⟩ := wraps
  refine ⟨by simp; omega, ?_, ?_, ?_⟩
  · rw [getD_append_of_lt more (by omega)]; exact clear
  · rw [getD_append_of_lt more (by omega)]; exact second
  · rw [window_append more (by omega)]; exact large

/-- **More bytes only ever change "need more".** -/
theorem parseFrame_append (exact' : ¬ Wraps (input ++ more))
    (decided : parseFrame input ≠ .needMore) : parseFrame (input ++ more) = parseFrame input := by
  have long : 2 ≤ input.length := by
    by_contra short
    exact decided (parseFrame_short (Nat.lt_of_not_le short))
  have long' : 2 ≤ (input ++ more).length := by simp; omega
  have here : ¬ Wraps input := fun wraps => exact' (wraps_append more wraps)
  have first : (input ++ more).getD 0 0 = input.getD 0 0 := getD_append_of_lt more (by omega)
  have second : (input ++ more).getD 1 0 = input.getD 1 0 := getD_append_of_lt more (by omega)
  rw [parseFrame_eq long] at decided ⊢
  rw [parseFrame_eq long', first, second]
  split
  · rfl
  rename_i clear
  split
  · rfl
  rename_i unmasked
  rw [if_neg clear, if_neg unmasked] at decided
  cases header : wireHeader input with
  | none => simp [header] at decided
  | some decoded =>
      obtain ⟨hdr, len⟩ := decoded
      have small := wireHeader_small header (by simpa using clear) (by simpa using unmasked) here
      simp only [header, Nat.mod_eq_of_lt small] at decided
      simp only [wireHeader_append more header, Nat.mod_eq_of_lt small]
      split at decided
      · exact absurd rfl decided
      · rename_i complete
        rw [if_neg (by simp; omega), if_neg complete]
        have some := wireHeader_pos header
        rw [reportedFrame_eq _ some small, reportedFrame_eq _ some small]
        simp only [wireFrame, first, window_append more (Nat.le_of_not_lt complete)]

end Append

end Manet.Protocol
