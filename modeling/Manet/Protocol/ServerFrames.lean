/-
# Manet.Protocol.ServerFrames — the parser undoes the server's encoder

A server frame is a FIN bit, four bits of opcode, a payload, and one of the three layouts
of the length that can carry it (`ServerFrame`, `encode`).  The layout need not be the
shortest one: the parser does not ask for that.

* `parseFrame_encode`: with anything behind it, an encoded frame is read back, and exactly
  its own bytes are consumed;
* `parseFrame_cut`: cut anywhere, it is not yet a frame;
* `frames_encode`: so parsing over and over takes a concatenation apart into the frames
  that were put together.

The cut is an instance of `parseFrame_append`: an answer on a part would be the answer on
the whole, which consumes more than the part has.
-/
import Manet.Protocol.WebSocketFrame

namespace Manet.Protocol

open Manet.Bytes

set_option autoImplicit false

/-- The three layouts of the payload length. -/
inductive LengthField where
  | len7
  | len16
  | len64
  deriving DecidableEq, Repr

namespace LengthField

/-- The layout can carry the length.  A frame is an object, so its size is a `size_t`. -/
def Carries : LengthField → Nat → Prop
  | .len7, n => n ≤ 125
  | .len16, n => n ≤ 65535
  | .len64, n => 10 + n < 2 ^ 64

/-- The second byte, with the mask bit clear, and the extended length. -/
def bytes : LengthField → Nat → List UInt8
  | .len7, n => [UInt8.ofNat n]
  | .len16, n => 126 :: bytesOf 2 n
  | .len64, n => 127 :: bytesOf 8 n

end LengthField

/-- A frame as a server sends it. -/
structure ServerFrame where
  fin : Bool
  opcode : Fin 16
  payload : List UInt8
  field : LengthField
  carries : field.Carries payload.length

namespace ServerFrame

def firstByte (f : ServerFrame) : UInt8 := (if f.fin then 0x80 else 0) ||| UInt8.ofNat f.opcode.val

def header (f : ServerFrame) : List UInt8 := f.firstByte :: f.field.bytes f.payload.length

def encode (f : ServerFrame) : List UInt8 := f.header ++ f.payload

/-- What the parser is to say of the frame. -/
def view (f : ServerFrame) : FrameView where
  op := .ofNibble (UInt8.ofNat f.opcode.val)
  fin := f.fin
  payload := ⟨f.payload, f.payload.length⟩
  payloadLen := f.payload.length

theorem firstByte_reads (fin : Bool) (opcode : Fin 16) :
    rsv ((if fin then 0x80 else 0) ||| UInt8.ofNat opcode.val) = 0 ∧
      toOp ((if fin then 0x80 else 0) ||| UInt8.ofNat opcode.val) =
        .ofNibble (UInt8.ofNat opcode.val) ∧
      finBit ((if fin then 0x80 else 0) ||| UInt8.ofNat opcode.val) = fin := by
  revert fin opcode
  decide

theorem header_length_pos (f : ServerFrame) : 2 ≤ f.header.length := by
  unfold header
  cases f.field <;> simp [LengthField.bytes]

theorem encode_length (f : ServerFrame) : f.encode.length = f.header.length + f.payload.length := by
  simp [encode]

theorem encode_small (f : ServerFrame) : f.encode.length < 2 ^ 64 := by
  have carries := f.carries
  rw [encode_length]
  unfold header
  cases field : f.field <;> rw [field] at carries <;>
    simp only [LengthField.Carries, LengthField.bytes, List.length_cons, List.length_nil,
      bytesOf_length] at carries ⊢ <;> omega

/-- The second byte of an encoded frame, with anything behind it. -/
theorem second_byte (f : ServerFrame) (t : List UInt8) :
    ((f.header ++ t).getD 1 0).toNat < 128 := by
  have carries := f.carries
  unfold header
  cases field : f.field with
  | len7 =>
      rw [field] at carries
      have small : f.payload.length ≤ 125 := carries
      show (UInt8.ofNat f.payload.length).toNat < 128
      rw [UInt8.toNat_ofNat']
      omega
  | len16 =>
      show (126 : UInt8).toNat < 128
      decide
  | len64 =>
      show (127 : UInt8).toNat < 128
      decide

/-- The header announces itself and the payload. -/
theorem wireHeader_header (f : ServerFrame) (t : List UInt8) :
    wireHeader (f.header ++ t) = some (f.header.length, f.payload.length) := by
  have carries := f.carries
  unfold header
  cases field : f.field with
  | len7 =>
      rw [field] at carries
      have small : f.payload.length ≤ 125 := carries
      have second : (UInt8.ofNat f.payload.length).toNat % 128 = f.payload.length := by
        rw [UInt8.toNat_ofNat']
        omega
      have read : wireHeader (f.firstByte :: UInt8.ofNat f.payload.length :: t) =
          some (2, (UInt8.ofNat f.payload.length).toNat % 128) := by
        apply wireHeader_len7
        · simp
        · show (UInt8.ofNat f.payload.length).toNat % 128 ≠ 126
          omega
        · show (UInt8.ofNat f.payload.length).toNat % 128 ≠ 127
          omega
      rw [second] at read
      exact read
  | len16 =>
      rw [field] at carries
      have small : f.payload.length < 256 ^ 2 := Nat.lt_succ_of_le carries
      show wireHeader (f.firstByte :: 126 :: (bytesOf 2 f.payload.length ++ t)) = _
      rw [wireHeader_len16 (by simp) rfl, if_neg (by simp)]
      have extended : ((f.firstByte :: 126 :: (bytesOf 2 f.payload.length ++ t)).drop 2).take 2 =
          bytesOf 2 f.payload.length := List.take_left' (bytesOf_length 2 _)
      rw [extended, natOf_bytesOf small]
      simp [LengthField.bytes]
  | len64 =>
      rw [field] at carries
      have small : f.payload.length < 256 ^ 8 := by
        have sized : 10 + f.payload.length < 2 ^ 64 := carries
        omega
      show wireHeader (f.firstByte :: 127 :: (bytesOf 8 f.payload.length ++ t)) = _
      rw [wireHeader_len64 (by simp) rfl, if_neg (by simp)]
      have extended : ((f.firstByte :: 127 :: (bytesOf 8 f.payload.length ++ t)).drop 2).take 8 =
          bytesOf 8 f.payload.length := List.take_left' (bytesOf_length 8 _)
      rw [extended, natOf_bytesOf small]
      simp [LengthField.bytes]

/-- **An encoded frame is read back**, whatever follows it. -/
theorem parseFrame_encode (f : ServerFrame) (t : List UInt8) :
    parseFrame (f.encode ++ t) = .ok ⟨f.view, f.encode.length⟩ := by
  obtain ⟨clear, op, fin⟩ := firstByte_reads f.fin f.opcode
  have shape : f.encode ++ t = f.header ++ (f.payload ++ t) := List.append_assoc _ _ _
  have first : (f.encode ++ t).getD 0 0 = f.firstByte := rfl
  have header := f.wireHeader_header (f.payload ++ t)
  have unmasked : masked ((f.encode ++ t).getD 1 0) = false := by
    rw [masked_eq_false_iff, shape]
    exact f.second_byte (f.payload ++ t)
  have sized := f.encode_small
  rw [encode_length] at sized
  have long : 2 ≤ (f.encode ++ t).length := by
    have := f.header_length_pos
    rw [List.length_append, encode_length]
    omega
  have complete : ¬ (f.encode ++ t).length < f.header.length + f.payload.length := by
    rw [List.length_append, encode_length]
    omega
  rw [← shape] at header
  rw [parseFrame_eq long, first]
  simp only [firstByte, clear, unmasked, header, Nat.mod_eq_of_lt sized, complete, ne_eq,
    not_true_eq_false, if_false, Bool.false_eq_true,
    reportedFrame_eq _ (Nat.lt_of_lt_of_le Nat.two_pos f.header_length_pos) sized]
  have payload : ((f.encode ++ t).drop f.header.length).take f.payload.length = f.payload := by
    rw [shape, List.drop_left, List.take_left]
  simp only [wireFrame, first, firstByte, op, fin, payload, encode_length, view]

theorem not_wraps_encode (f : ServerFrame) : ¬ Wraps f.encode := by
  rintro ⟨long, -, second, large⟩
  have header := f.wireHeader_header f.payload
  have is127 : (f.encode.getD 1 0).toNat % 128 = 127 := by rw [second]; rfl
  rw [show f.header ++ f.payload = f.encode from rfl, wireHeader_len64 (by omega) is127,
    if_neg (by omega), Option.some.injEq, Prod.mk.injEq] at header
  have sized := f.encode_small
  rw [encode_length] at sized
  omega

/-- **A frame that is cut anywhere is not yet a frame.** -/
theorem parseFrame_cut (f : ServerFrame) {k : Nat} (short : k < f.encode.length) :
    parseFrame (f.encode.take k) = .needMore := by
  have whole : f.encode.take k ++ f.encode.drop k = f.encode := List.take_append_drop k f.encode
  by_contra decided
  -- an answer would be the answer to the whole frame
  have same : parseFrame (f.encode.take k ++ f.encode.drop k) = parseFrame (f.encode.take k) := by
    apply parseFrame_append
    · rw [whole]
      exact f.not_wraps_encode
    · exact decided
  have read := f.parseFrame_encode []
  rw [List.append_nil] at read
  rw [whole, read] at same
  have inside := (parseFrame_within same.symm).1
  simp only [List.length_take] at inside
  omega

end ServerFrame

/-! ## A stream of frames -/

/-- `parse_frame` over and over, at most `n` times: the frames, and what is left. -/
def framesFor : Nat → List UInt8 → List FrameView × List UInt8
  | 0, input => ([], input)
  | n + 1, input =>
      match parseFrame input with
      | .ok out =>
          let (later, rest) := framesFor n (input.drop out.consumed)
          (out.frame :: later, rest)
      | _ => ([], input)

/-- Until `parse_frame` has no frame: a frame takes two bytes at least. -/
def frames (input : List UInt8) : List FrameView × List UInt8 := framesFor input.length input

def encodeAll (fs : List ServerFrame) : List UInt8 := fs.flatMap ServerFrame.encode

theorem encodeAll_length (fs : List ServerFrame) : fs.length ≤ (encodeAll fs).length := by
  induction fs with
  | nil => exact Nat.zero_le _
  | cons f later ih =>
      have long := f.header_length_pos
      have size := f.encode_length
      simp only [encodeAll, List.flatMap_cons, List.length_cons, List.length_append] at ih ⊢
      omega

theorem framesFor_encodeAll (fs : List ServerFrame) {n : Nat} (enough : fs.length ≤ n) :
    framesFor n (encodeAll fs) = (fs.map ServerFrame.view, []) := by
  induction fs generalizing n with
  | nil =>
      cases n with
      | zero => rfl
      | succ n => rfl
  | cons f later ih =>
      obtain ⟨m, rfl⟩ : ∃ m, n = m + 1 := Nat.exists_eq_succ_of_ne_zero (by
        rw [List.length_cons] at enough
        omega)
      have here : encodeAll (f :: later) = f.encode ++ encodeAll later := List.flatMap_cons
      have fewer : later.length ≤ m := by
        rw [List.length_cons] at enough
        omega
      rw [framesFor, here, f.parseFrame_encode (encodeAll later)]
      simp only [List.drop_left, ih fewer, List.map_cons]

/-- **The parser undoes the encoder.**  Whatever follows an encoded frame, the parser returns its
opcode, FIN bit and payload and consumes its bytes; of no strict part of it does it make a frame;
and over a concatenation of encoded frames it recovers the list. -/
theorem parse_undoes_encode :
    (∀ (f : ServerFrame) (t : List UInt8),
      parseFrame (f.encode ++ t) = .ok ⟨f.view, f.encode.length⟩) ∧
    (∀ f : ServerFrame, ∀ k < f.encode.length, parseFrame (f.encode.take k) = .needMore) ∧
    ∀ fs : List ServerFrame, frames (encodeAll fs) = (fs.map ServerFrame.view, []) := by
  refine ⟨ServerFrame.parseFrame_encode, ?_, ?_⟩
  · intro f k short
    exact f.parseFrame_cut short
  · intro fs
    exact framesFor_encodeAll fs (encodeAll_length fs)

/-- A text frame of five bytes, with the 16-bit length it does not need. -/
def hello : ServerFrame := ⟨true, 1, [72, 101, 108, 108, 111], .len16, by simp [LengthField.Carries]⟩

/-- Cut behind its seventh byte it is incomplete, and sent twice it is found twice. -/
theorem parse_undoes_encode_hello :
    hello.encode = [0x81, 126, 0, 5, 72, 101, 108, 108, 111] ∧
      parseFrame [0x81, 126, 0, 5, 72, 101, 108] = .needMore ∧
      frames (hello.encode ++ hello.encode) = ([hello.view, hello.view], []) := by
  obtain ⟨-, cut, stream⟩ := parse_undoes_encode
  refine ⟨by decide, ?_, ?_⟩
  · exact cut hello 7 (by decide)
  · exact stream [hello, hello]

end Manet.Protocol
