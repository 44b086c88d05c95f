/-
# Manet.Protocol.ControlFrames — a server reads what the session writes

The session has two encoders for its control frames: `write_control_frame`, with a random mask,
and the reply to a close in `handle_frame`, written out byte by byte with a fixed one.  Both
write a `maskedFrame`, and `decodeControl`, the rules of RFC 6455 for a server, reads the frame
back whatever the mask (`decodeControl_masked`).  What each handler writes is then its `ownReply`:
one frame that fills the bytes TX was advanced by, or nothing where it has no room
(`client_frames_decode`).
-/
import Manet.Protocol.ClientFrames
import Manet.Protocol.WebSocketMessages

namespace Manet.Protocol

open Manet.Bytes Manet.Reactor

set_option autoImplicit false

/-! ## A server's rules -/

structure ControlFrame where
  op : OpCode
  payload : List UInt8
  deriving DecidableEq, Repr

def controlOp : Nat → Option OpCode
  | 8 => some .close
  | 9 => some .ping
  | 10 => some .pong
  | _ => none

/-- Section 5.3; masking and unmasking are the same. -/
def mask (key payload : List UInt8) : List UInt8 :=
  payload.mapIdx fun i b => key.getD (i % 4) 0 ^^^ b

/-- The control frame at the front, and what follows it: FIN set, the reserved bits clear, MASK
set, a length of seven bits, four bytes of key. -/
def decodeControl : List UInt8 → Option (ControlFrame × List UInt8)
  | b0 :: b1 :: rest =>
      let len := b1.toNat % 128
      if b0.toNat / 128 = 1 ∧ b0.toNat / 16 % 8 = 0 ∧ b1.toNat / 128 = 1 ∧ len ≤ 125 ∧
          4 + len ≤ rest.length then
        (controlOp (b0.toNat % 16)).map fun op =>
          (⟨op, mask (rest.take 4) ((rest.drop 4).take len)⟩, rest.drop (4 + len))
      else none
  | _ => none

/-- A control frame under a key. -/
def maskedFrame (op : OpCode) (key payload : List UInt8) : List UInt8 :=
  (0x80 ||| op.toByte) :: (0x80 ||| payload.length.toUInt8) :: (key ++ mask key payload)

theorem mask_length (key payload : List UInt8) : (mask key payload).length = payload.length := by
  simp [mask]

theorem mask_mask (key payload : List UInt8) : mask key (mask key payload) = payload := by
  have undone : ∀ k b : UInt8, k ^^^ (k ^^^ b) = b := by
    intro k b
    rw [← UInt8.xor_assoc, UInt8.xor_self, UInt8.zero_xor]
  apply List.ext_getElem?
  intro i
  simp only [mask, List.getElem?_mapIdx, Option.map_map, Function.comp_def, undone]
  exact Option.map_id'

theorem second_byte_toNat : ∀ n < 126, (0x80 ||| n.toUInt8 : UInt8).toNat = 128 + n := by
  decide +kernel

theorem control_byte {op : OpCode} (control : op.isControl = true) :
    (0x80 ||| op.toByte).toNat / 128 = 1 ∧ (0x80 ||| op.toByte).toNat / 16 % 8 = 0 ∧
      controlOp ((0x80 ||| op.toByte).toNat % 16) = some op := by
  cases op with
  | close | ping | pong => decide
  | cont | text | binary | reserved => simp [OpCode.isControl] at control

/-- **Under any key the frame reads back**, and takes exactly its bytes. -/
theorem decodeControl_masked {op : OpCode} {key payload : List UInt8}
    (control : op.isControl = true) (four : key.length = 4) (short : payload.length ≤ 125)
    (rest : List UInt8) :
    decodeControl (maskedFrame op key payload ++ rest) = some (⟨op, payload⟩, rest) := by
  obtain ⟨fin, reserved, code⟩ := control_byte control
  have second := second_byte_toNat payload.length (by omega)
  have len : (0x80 ||| payload.length.toUInt8 : UInt8).toNat % 128 = payload.length := by omega
  have front : (key ++ mask key payload ++ rest).take 4 = key := by
    rw [List.append_assoc, ← four, List.take_left]
  have behind : (key ++ mask key payload ++ rest).drop 4 = mask key payload ++ rest := by
    rw [List.append_assoc, ← four, List.drop_left]
  have body : (mask key payload ++ rest).take payload.length = mask key payload := by
    rw [← mask_length key payload, List.take_left]
  have tail : (key ++ mask key payload ++ rest).drop (4 + payload.length) = rest := by
    rw [← List.drop_drop, behind, ← mask_length key payload, List.drop_left]
  have complete : 4 + payload.length ≤ (key ++ mask key payload ++ rest).length := by
    simp only [List.length_append, four, mask_length]
    omega
  show decodeControl ((0x80 ||| op.toByte) :: (0x80 ||| payload.length.toUInt8) ::
    (key ++ mask key payload ++ rest)) = _
  unfold decodeControl
  simp only [len]
  rw [if_pos ⟨fin, reserved, by omega, short, complete⟩, code, front, behind, body, mask_mask, tail]
  rfl

/-! ## The two encoders -/

theorem pair_toNat (a b : UInt8) : (a.toUInt16 <<< 8 ||| b.toUInt16).toNat = a.toNat * 256 + b.toNat := by
  have high := a.toNat_lt
  have low := b.toNat_lt
  have shifted : (a.toUInt16 <<< 8).toNat = a.toNat <<< 8 := by
    rw [UInt16.toNat_shiftLeft, UInt8.toNat_toUInt16]
    show a.toNat <<< 8 % 2 ^ 16 = a.toNat <<< 8
    rw [Nat.shiftLeft_eq, Nat.mod_eq_of_lt (by omega)]
  rw [UInt16.toNat_or, shifted, UInt8.toNat_toUInt16, ← Nat.shiftLeft_add_eq_or_of_lt (by omega),
    Nat.shiftLeft_eq]

/-- The two bytes of a code, the high one first. -/
theorem code_bytes (code : UInt16) :
    [(code >>> 8).toUInt8, code.toUInt8] = bytesOf 2 code.toNat ∧
      (code &&& 0xff).toUInt8 = code.toUInt8 := by
  have small := code.toNat_lt
  have high : (code >>> 8).toUInt8 = UInt8.ofNat (code.toNat / 256) := by
    apply UInt8.toNat_inj.mp
    rw [UInt16.toNat_toUInt8, UInt16.toNat_shiftRight, Nat.shiftRight_eq_div_pow, UInt8.toNat_ofNat']
    rfl
  have low : code.toUInt8 = UInt8.ofNat (code.toNat % 256) := by
    apply UInt8.toNat_inj.mp
    rw [UInt16.toNat_toUInt8, UInt8.toNat_ofNat']
    omega
  refine ⟨?_, ?_⟩
  · rw [high, low]
    simp [bytesOf]
  · apply UInt8.toNat_inj.mp
    rw [UInt16.toNat_toUInt8, UInt16.toNat_toUInt8, UInt16.toNat_and]
    have masked := Nat.and_two_pow_sub_one_eq_mod code.toNat 8
    show (code.toNat &&& 2 ^ 8 - 1) % 2 ^ 8 = _
    rw [masked]
    omega

/-- The code that the reply to a close carries: the one that came, or "normal". -/
def replyCode (payload : List UInt8) : List UInt8 :=
  if 2 ≤ payload.length then payload.take 2 else bytesOf 2 CloseCode.normal.toUInt16.toNat

example : replyCode [] = [3, 232] := by decide

theorem replyCode_length (payload : List UInt8) : (replyCode payload).length = 2 := by
  unfold replyCode
  split
  · rw [List.length_take]
    omega
  · rfl

def fixedKey : List UInt8 := [0xDE, 0xAD, 0xBE, 0xEF]

/-- The reply written by hand is a masked frame. -/
theorem closeReply_eq (payload : List UInt8) (behind : Nat → UInt8) :
    WebSocketSession.closeReply ⟨payload, payload.length⟩ behind =
      maskedFrame .close fixedKey (replyCode payload) := by
  have frame : ∀ code : UInt16, bytesOf 2 code.toNat = replyCode payload →
      [0x80 ||| OpCode.close.toByte, 0x80 ||| 0x02, 0xDE, 0xAD, 0xBE, 0xEF,
        (code >>> 8).toUInt8 ^^^ 0xDE, (code &&& 0xff).toUInt8 ^^^ 0xAD] =
        maskedFrame .close fixedKey (replyCode payload) := by
    intro code bytes
    obtain ⟨pair, low⟩ := code_bytes code
    rw [low, ← bytes, ← pair, UInt8.xor_comm _ 0xDE, UInt8.xor_comm _ 0xAD]
    rfl
  unfold WebSocketSession.closeReply
  by_cases coded : 2 ≤ payload.length
  · obtain ⟨a, b, more, rfl⟩ : ∃ a b more, payload = a :: b :: more := by
      match payload, coded with
      | a :: b :: more, _ => exact ⟨a, b, more, rfl⟩
    simp only [if_pos coded]
    apply frame
    rw [replyCode, if_pos coded]
    show bytesOf 2 (a.toUInt16 <<< 8 ||| b.toUInt16).toNat = [a, b]
    have written := bytesOf_natOf [a, b]
    simp only [natOf, List.length_cons, List.length_nil, Nat.zero_add, Nat.pow_one, Nat.pow_zero,
      Nat.mul_one, Nat.add_zero] at written
    rw [pair_toNat]
    exact written
  · simp only [if_neg coded]
    apply frame
    rw [replyCode, if_neg coded]

section Writers

variable {ω : Type} (K : Crypto ω)

theorem controlFrame_eq (op : OpCode) (payload : List UInt8) (w : ω) :
    (controlFrame K op ⟨payload, payload.length⟩ w).1 =
      maskedFrame op (randomBytes K 4 w).1 payload := by
  simp [controlFrame, maskedFrame, mask]

/-- What is written as a control frame: the frame, or nothing where it has no room. -/
theorem writeControlFrame_eq (room : Nat) (op : OpCode) (payload : List UInt8) (w : ω) :
    (writeControlFrame K room op ⟨payload, payload.length⟩ w).1 =
      if payload.length ≤ 125 ∧ 6 + payload.length ≤ room then
        maskedFrame op (randomBytes K 4 w).1 payload
      else [] := by
  by_cases fits : payload.length ≤ 125 ∧ 6 + payload.length ≤ room
  · rw [if_pos fits, writeControlFrame_of_room K w fits.2 fits.1, controlFrame_eq]
  · rw [if_neg fits]
    unfold writeControlFrame
    by_cases short : payload.length ≤ 125
    · have sum : sizeAdd 6 payload.length = 6 + payload.length := sizeAdd_of_lt (by omega)
      rw [if_pos (.inl (by simp only [sum]; omega))]
    · rw [if_pos (.inr (Nat.lt_of_not_le short))]

theorem writeClose_eq (room : Nat) (code : CloseCode) (w : ω) :
    (writeClose K room code w).1 =
      if 8 ≤ room then
        maskedFrame .close (randomBytes K 4 w).1 (bytesOf 2 code.toUInt16.toNat)
      else [] := by
  obtain ⟨pair, -⟩ := code_bytes code.toUInt16
  unfold writeClose
  rw [pair]
  have written := writeControlFrame_eq K room .close (bytesOf 2 code.toUInt16.toNat) w
  simp only [bytesOf_length] at written
  rw [written]
  congr 1
  simp

end Writers

/-! ## What the handlers write -/

/-- TX was advanced by exactly one control frame, or not at all. -/
def Wrote (tx tx' : Buffer TX_CAP) : Option ControlFrame → Prop
  | some frame => ∃ bytes, tx'.rbuf = tx.rbuf ++ bytes ∧ tx'.wpos = tx.wpos + bytes.length ∧
      decodeControl bytes = some (frame, [])
  | none => tx' = tx

theorem wrote_masked {tx : Buffer TX_CAP} (valid : tx.Valid) {op : OpCode} {key payload : List UInt8}
    (control : op.isControl = true) (four : key.length = 4) (short : payload.length ≤ 125)
    (room : 6 + payload.length ≤ tx.wsize) :
    Wrote tx (tx.write (maskedFrame op key payload)) (some ⟨op, payload⟩) := by
  have length : (maskedFrame op key payload).length = 6 + payload.length := by
    simp only [maskedFrame, List.length_cons, List.length_append, four, mask_length]
    omega
  have fits : (maskedFrame op key payload).length ≤ tx.wsize := by omega
  have decoded := decodeControl_masked control four short []
  rw [List.append_nil] at decoded
  refine ⟨maskedFrame op key payload, Buffer.rbuf_write tx_small valid fits, ?_, decoded⟩
  have cap := tx_small
  have bounded := valid.bounded
  rw [Buffer.wsize_eq valid] at fits
  show sizeAdd tx.wpos (maskedFrame op key payload).length = _
  exact sizeAdd_of_lt (by omega)

theorem wrote_nothing (tx : Buffer TX_CAP) (valid : tx.Valid) : Wrote tx (tx.write []) none :=
  Buffer.write_nil tx_small valid

variable {ω : Type} {C : Codec ω}

/-- What the session itself writes for a message handed to `handle_frame`, into `room` bytes. -/
def ownReply (room : Nat) (m : Message) : Option ControlFrame :=
  match m.op with
  | .ping => if m.payload.length ≤ 125 ∧ 6 + m.payload.length ≤ room then some ⟨.pong, m.payload⟩ else none
  | .close => if 8 ≤ room then some ⟨.close, replyCode m.payload⟩ else none
  | .cont | .text | .binary | .pong | .reserved _ => none

/-- The message that a frame hands to `handle_frame`, if it does. -/
def handed (s : WebSocketSession C) (f : Frame) : Option Message :=
  if f.fragment then
    if s.msg.length + f.payload.length ≤ MSG_CAP ∧ f.fin then some ⟨s.opcode, s.msg ++ f.payload⟩
    else none
  else some ⟨f.op, f.payload⟩

/-- The code that `on_shutdown` sends. -/
def shutdownCode (s : WebSocketSession C) (w : ω) : CloseCode :=
  match C.onShutdown with
  | none => .normal
  | some f => (f s.codec w).1

namespace WebSocketSession

variable (K : Crypto ω) {s : WebSocketSession C} {io : Io} {w : ω}

/-- A message that is not the codec's is answered as `ownReply` says. -/
theorem handleFrame_answers (valid : io.tx.Valid) {m : Message} (own : m.op.data = false) :
    ∃ status s' io' w',
      handleFrame K s io m.op ⟨m.payload, m.payload.length⟩ w = some (status, s', io', w') ∧
        Wrote io.tx io'.tx (ownReply io.tx.wsize m) := by
  obtain ⟨op, payload⟩ := m
  cases op with
  | text | binary => cases own
  | cont | pong | reserved => exact ⟨_, _, _, _, rfl, rfl⟩
  | close =>
      simp only [handleFrame, ownReply]
      by_cases room : 8 ≤ io.tx.wsize
      · rw [if_pos room, if_pos room, closeReply_eq]
        have size := replyCode_length payload
        exact ⟨_, _, _, _, rfl, wrote_masked valid rfl rfl (by omega) (by omega)⟩
      · rw [if_neg room, if_neg room]
        exact ⟨_, _, _, _, rfl, rfl⟩
  | ping =>
      simp only [handleFrame, ownReply]
      by_cases long : 126 ≤ payload.length
      · rw [if_pos long, if_neg (by omega)]
        exact ⟨_, _, _, _, rfl, rfl⟩
      have sum : sizeAdd 6 payload.length = 6 + payload.length := sizeAdd_of_lt (by omega)
      rw [if_neg long, sum]
      by_cases room : io.tx.wsize < 6 + payload.length
      · rw [if_pos room, if_neg (by omega)]
        exact ⟨_, _, _, _, rfl, rfl⟩
      · have fits : payload.length ≤ 125 ∧ 6 + payload.length ≤ io.tx.wsize := by omega
        rw [if_neg room, if_pos fits]
        refine ⟨_, _, _, _, rfl, ?_⟩
        show Wrote io.tx (io.tx.write (writeControlFrame K io.tx.wsize .pong
          ⟨payload, payload.length⟩ w).1) _
        rw [writeControlFrame_eq, if_pos fits]
        exact wrote_masked valid rfl (randomBytes_length K 4 w) fits.1 fits.2

/-- A frame at the front of RX is answered as the message it hands over, and not at all where it
hands over none. -/
theorem onData_answers (valid : io.tx.Valid) (listening : s.state = .listening)
    (small : s.msg.length ≤ MSG_CAP) {f : Frame} (presents : Presents f io)
    (own : ∀ m, handed s f = some m → m.op.data = false) :
    ∃ status s' io' w', onData K s io w = some (status, s', io', w') ∧
      Wrote io.tx io'.tx ((handed s f).bind (ownReply io.tx.wsize)) := by
  obtain ⟨hdr, len, -, -, called⟩ := onData_frame (K := K) (w := w) listening presents
  have consumed : (Io.tx ⟨io.rx.incRpos (hdr + len), io.tx⟩).Valid := valid
  rw [called]
  unfold handed at own ⊢
  by_cases fragment : f.fragment
  · simp only [if_pos fragment] at own ⊢
    rw [addFragment_view small presents.small]
    by_cases room : MSG_CAP < s.msg.length + f.payload.length
    · rw [if_pos room, if_neg (by omega)]
      exact ⟨_, _, _, _, rfl, rfl⟩
    rw [if_neg room]
    by_cases last : f.fin = true
    · have whole : s.msg.length + f.payload.length ≤ MSG_CAP ∧ f.fin = true := ⟨by omega, last⟩
      rw [if_pos whole] at own ⊢
      rw [if_pos last]
      obtain ⟨status, s', io', w', handled, wrote⟩ := handleFrame_answers K
        (s := { s with msg := s.msg ++ f.payload }) (w := w) consumed (own _ rfl)
      rw [handled]
      exact ⟨_, _, _, _, rfl, wrote⟩
    · have open' : ¬ (s.msg.length + f.payload.length ≤ MSG_CAP ∧ f.fin = true) :=
        fun whole => last whole.2
      rw [if_neg last, if_neg open']
      exact ⟨_, _, _, _, rfl, rfl⟩
  · simp only [if_neg fragment] at own ⊢
    exact handleFrame_answers K consumed (own _ rfl)

theorem onShutdown_answers (valid : io.tx.Valid) :
    ∃ status s' io' w', onShutdown K s io w = some (status, s', io', w') ∧
      Wrote io.tx io'.tx (if 8 ≤ io.tx.wsize then
        some ⟨.close, bytesOf 2 (shutdownCode s w).toUInt16.toNat⟩ else none) := by
  have closes : ∀ (code : CloseCode) (w : ω), Wrote io.tx
      (io.tx.write (writeClose K io.tx.wsize code w).1)
      (if 8 ≤ io.tx.wsize then some ⟨.close, bytesOf 2 code.toUInt16.toNat⟩ else none) := by
    intro code w
    have size : (bytesOf 2 code.toUInt16.toNat).length = 2 := bytesOf_length 2 _
    rw [writeClose_eq]
    split
    · exact wrote_masked valid rfl (randomBytes_length K 4 w) (by omega) (by omega)
    · exact wrote_nothing io.tx valid
  unfold onShutdown shutdownCode
  cases C.onShutdown with
  | none => exact ⟨_, _, _, _, rfl, closes _ _⟩
  | some f => exact ⟨_, _, _, _, rfl, closes _ _⟩

theorem heartbeat_answers {tx : Buffer TX_CAP} (valid : tx.Valid) :
    ∃ s' tx' w', heartbeat K s tx w = some (s', tx', w') ∧
      Wrote tx tx' (if 6 ≤ tx.wsize then some ⟨.ping, []⟩ else none) := by
  refine ⟨_, _, _, rfl, ?_⟩
  have written := writeControlFrame_eq K tx.wsize .ping [] w
  simp only [List.length_nil, Nat.zero_le, true_and, Nat.add_zero] at written
  show Wrote tx (tx.write (writeControlFrame K tx.wsize .ping ⟨[], 0⟩ w).1) _
  rw [written]
  split
  · rename_i room
    exact wrote_masked valid rfl (randomBytes_length K 4 w) (Nat.zero_le _) room
  · exact wrote_nothing tx valid

end WebSocketSession

open WebSocketSession in
/-- **A server reads what the session writes.**  For every random device, session and TX: a message
that a frame hands over and that is not the codec's is answered by the frame that `ownReply` names,
or by nothing; `on_shutdown` and `heartbeat` write their frame or nothing; and the close reply is
what `write_close` writes under its key. -/
theorem client_frames_decode (K : Crypto ω) (s : WebSocketSession C) (w : ω) (io : Io)
    (valid : io.tx.Valid) :
    (s.state = .listening → s.msg.length ≤ MSG_CAP → ∀ f, Presents f io →
        (∀ m, handed s f = some m → m.op.data = false) →
        ∃ status s' io' w', onData K s io w = some (status, s', io', w') ∧
          Wrote io.tx io'.tx ((handed s f).bind (ownReply io.tx.wsize))) ∧
      (∃ status s' io' w', onShutdown K s io w = some (status, s', io', w') ∧
        Wrote io.tx io'.tx (if 8 ≤ io.tx.wsize then
          some ⟨.close, bytesOf 2 (shutdownCode s w).toUInt16.toNat⟩ else none)) ∧
      (∃ s' tx' w', heartbeat K s io.tx w = some (s', tx', w') ∧
        Wrote io.tx tx' (if 6 ≤ io.tx.wsize then some ⟨.ping, []⟩ else none)) ∧
      ∀ (payload : List UInt8) (behind : Nat → UInt8) (code : CloseCode) (room : Nat),
        bytesOf 2 code.toUInt16.toNat = replyCode payload →
        (randomBytes K 4 w).1 = fixedKey → 8 ≤ room →
        closeReply ⟨payload, payload.length⟩ behind = (writeClose K room code w).1 := by
  refine ⟨?_, onShutdown_answers K valid, heartbeat_answers K valid, ?_⟩
  · intro listening small f presents own
    exact onData_answers K valid listening small presents own
  · intro payload behind code room same key roomy
    rw [closeReply_eq, writeClose_eq, if_pos roomy, key, same]

/-- A ping with two bytes. -/
theorem carries_ping : Carries [0x89, 2, 0x68, 0x69] ⟨.ping, true, [0x68, 0x69]⟩ :=
  ⟨by decide, by decide, 2, 2, by decide, by decide, by decide⟩

open WebSocketSession in
/-- The ping is answered by a pong with its two bytes. -/
theorem client_frames_decode_ping :
    ∃ status s' io' w', onData zeroCrypto upgraded (window [0x89, 2, 0x68, 0x69]) () =
        some (status, s', io', w') ∧
      Wrote (window [0x89, 2, 0x68, 0x69]).tx io'.tx (some ⟨.pong, [0x68, 0x69]⟩) := by
  have presents := presents_window carries_ping (by decide)
  obtain ⟨read, -⟩ := client_frames_decode zeroCrypto upgraded () (window [0x89, 2, 0x68, 0x69])
    Buffer.init_valid
  obtain ⟨status, s', io', w', answered, wrote⟩ := read rfl (by decide) _ presents (by decide)
  exact ⟨status, s', io', w', answered, wrote⟩

end Manet.Protocol
