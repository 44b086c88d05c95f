/-
# Manet.Protocol.ClientFrames — the frames a client's byte stream consists of

What the session queues is a byte stream; `opcodes` cuts it into frames as a server
would: the header, four bytes of mask if the mask bit is set, the payload.  A stream that
ends inside a frame has no reading.  Readings compose (`opcodes_append`), so a stream to
which whole frames are appended keeps the frames it had.

What the session writes itself are whole frames; none of them is a close but those of
`on_shutdown` and of a reply to a close (`dispatchFrame_closeless`, `onShutdown_closes`).
-/
import Manet.Protocol.WebSocketSession

namespace Manet.Protocol

open Manet.Reactor

set_option autoImplicit false

/-- The size of the frame at the front. -/
def frameSize (input : List UInt8) : Option Nat :=
  (wireHeader input).map fun (hdr, len) => hdr + (if masked (input.getD 1 0) then 4 else 0) + len

def opcodesFor : Nat → List UInt8 → Option (List OpCode)
  | 0, input => if input.isEmpty then some [] else none
  | fuel + 1, input =>
      if input.isEmpty then some []
      else
        match frameSize input with
        | none => none
        | some size =>
            if input.length < size then none
            else (opcodesFor fuel (input.drop size)).map (toOp (input.getD 0 0) :: ·)

/-- The opcodes of the frames, if `input` is a sequence of whole frames.  No frame is empty, so
there are no more of them than bytes. -/
def opcodes (input : List UInt8) : Option (List OpCode) := opcodesFor input.length input

theorem frameSize_pos {input : List UInt8} {size : Nat} (framed : frameSize input = some size) :
    2 ≤ size := by
  obtain ⟨⟨hdr, len⟩, header, rfl⟩ := Option.map_eq_some_iff.mp framed
  rcases (wireHeader_cases header).2.2 with ⟨rfl, -⟩ | ⟨rfl, -⟩ | ⟨rfl, -⟩ <;> simp only <;> omega

theorem frameSize_append {input : List UInt8} {size : Nat} (framed : frameSize input = some size)
    (more : List UInt8) : frameSize (input ++ more) = some size := by
  obtain ⟨⟨hdr, len⟩, header, rfl⟩ := Option.map_eq_some_iff.mp framed
  have long := (wireHeader_cases header).1
  simp only [frameSize, wireHeader_append more header, Option.map_some,
    getD_append_of_lt more (show 1 < input.length by omega)]

theorem opcodesFor_eq {fuel : Nat} {input : List UInt8} (enough : input.length ≤ fuel) :
    opcodesFor fuel input = opcodes input := by
  unfold opcodes
  generalize size : input.length = n
  induction n using Nat.strongRecOn generalizing fuel input with
  | ind n ih =>
      by_cases empty : input = []
      · subst empty
        cases fuel <;> subst size <;> rfl
      · obtain ⟨n', rfl⟩ : ∃ n', n = n' + 1 :=
          Nat.exists_eq_succ_of_ne_zero fun zero => empty (List.length_eq_zero_iff.mp (size.trans zero))
        obtain ⟨fuel', rfl⟩ : ∃ fuel', fuel = fuel' + 1 :=
          Nat.exists_eq_succ_of_ne_zero (by omega)
        simp only [opcodesFor]
        cases framed : frameSize input with
        | none => rfl
        | some k =>
            have positive := frameSize_pos framed
            have shorter : (input.drop k).length ≤ n' := by rw [List.length_drop]; omega
            simp only
            have fits : (input.drop k).length ≤ fuel' := by omega
            rw [ih (input.drop k).length (by omega) fits rfl,
              ih (input.drop k).length (by omega) shorter rfl]

/-- The first frame, and the rest. -/
theorem opcodes_frame {input : List UInt8} {size : Nat} (framed : frameSize input = some size)
    (whole : size ≤ input.length) :
    opcodes input = (opcodes (input.drop size)).map (toOp (input.getD 0 0) :: ·) := by
  have positive := frameSize_pos framed
  obtain ⟨n, long⟩ : ∃ n, input.length = n + 1 := Nat.exists_eq_succ_of_ne_zero (by omega)
  have some' : input.isEmpty = false := by
    cases input
    · simp at long
    · rfl
  have shorter : (input.drop size).length ≤ n := by rw [List.length_drop]; omega
  rw [← opcodesFor_eq shorter]
  simp only [opcodes, long, opcodesFor, some', Bool.false_eq_true, if_false, framed]
  rw [if_neg (by omega)]

/-- **Appending whole frames to whole frames.** -/
theorem opcodes_append {first second : List UInt8} {ops ops' : List OpCode}
    (before : opcodes first = some ops) (after : opcodes second = some ops') :
    opcodes (first ++ second) = some (ops ++ ops') := by
  generalize size : first.length = n
  induction n using Nat.strongRecOn generalizing first ops with
  | ind n ih =>
      by_cases empty : first = []
      · subst empty
        cases before
        exact after
      have some' : first.isEmpty = false := by simpa using empty
      obtain ⟨n', long⟩ : ∃ n', first.length = n' + 1 :=
        Nat.exists_eq_succ_of_ne_zero fun zero => empty (List.length_eq_zero_iff.mp zero)
      have unfolded := before
      simp only [opcodes, long, opcodesFor, some', Bool.false_eq_true, if_false] at unfolded
      cases framed : frameSize first with
      | none =>
          rw [framed] at unfolded
          cases unfolded
      | some k =>
          rw [framed] at unfolded
          simp only at unfolded
          split at unfolded
          · cases unfolded
          · have positive := frameSize_pos framed
            have whole : k ≤ first.length := by omega
            rw [opcodes_frame framed whole] at before
            obtain ⟨rest, later, rfl⟩ := Option.map_eq_some_iff.mp before
            have shorter : (first.drop k).length < n := by rw [List.length_drop]; omega
            rw [opcodes_frame (frameSize_append framed second) (by simp; omega),
              List.drop_append_of_le_length whole, ih _ shorter later rfl,
              getD_append_of_lt second (by omega)]
            rfl

/-! ## The frames the session writes -/

theorem opcodes_single {frame : List UInt8} (framed : frameSize frame = some frame.length) :
    opcodes frame = some [toOp (frame.getD 0 0)] := by
  rw [opcodes_frame framed (Nat.le_refl _), List.drop_length]
  rfl

theorem short_mask : ∀ n < 126, masked (0x80 ||| n.toUInt8) = true ∧
    (0x80 ||| n.toUInt8).toNat % 128 = n := by
  decide +kernel

/-- A masked frame with a short payload, header, mask and payload in a row. -/
theorem frameSize_masked {b0 : UInt8} {n : Nat} {rest : List UInt8} (short : n ≤ 125) :
    frameSize (b0 :: (0x80 ||| n.toUInt8) :: rest) = some (6 + n) := by
  obtain ⟨mask, size⟩ := short_mask n (by omega)
  have second : (b0 :: (0x80 ||| n.toUInt8) :: rest).getD 1 0 = 0x80 ||| n.toUInt8 := rfl
  have header : wireHeader (b0 :: (0x80 ||| n.toUInt8) :: rest) = some (2, n) := by
    rw [wireHeader_len7 (by simp) (by rw [second]; omega) (by rw [second]; omega), second, size]
  simp only [frameSize, header, Option.map_some, second, mask, if_true]

/-- The opcodes of control frames. -/
def OpCode.isControl (op : OpCode) : Bool := op = .close ∨ op = .ping ∨ op = .pong

theorem toOp_control {op : OpCode} (control : op.isControl = true) :
    toOp (0x80 ||| op.toByte) = op := by
  cases op with
  | close | ping | pong => decide
  | cont | text | binary | reserved => simp [OpCode.isControl] at control

section Control

variable {ω : Type} (K : Crypto ω)

/-- What is written as a control frame is one frame, or nothing. -/
theorem opcodes_writeControlFrame {room : Nat} {op : OpCode} {payload : Span} {w : ω}
    (control : op.isControl = true)
    (counted : payload.size ≤ 125 → payload.bytes.length = payload.size) :
    opcodes (writeControlFrame K room op payload w).1 =
      some (if (writeControlFrame K room op payload w).1 = [] then [] else [op]) := by
  unfold writeControlFrame
  split
  · rfl
  · rename_i fits
    have short : payload.size ≤ 125 := by omega
    have framed : frameSize (controlFrame K op payload w).1 =
        some (controlFrame K op payload w).1.length := by
      rw [controlFrame_length, counted short]
      exact frameSize_masked short
    rw [opcodes_single framed, if_neg, show (controlFrame K op payload w).1.getD 0 0 =
      0x80 ||| op.toByte from rfl, toOp_control control]
    intro empty
    have length := controlFrame_length K op payload w
    rw [empty] at length
    simp at length
    omega

theorem opcodes_writeClose {room : Nat} {code : CloseCode} {w : ω} :
    opcodes (writeClose K room code w).1 = some [] ∨
      opcodes (writeClose K room code w).1 = some [.close] := by
  rw [writeClose, opcodes_writeControlFrame K rfl fun _ => rfl]
  split
  · exact .inl rfl
  · exact .inr rfl

end Control

/-! ## Streams without a close -/

/-- Whole frames, none of them a close. -/
def Closeless (bytes : List UInt8) : Prop := ∃ ops, opcodes bytes = some ops ∧ .close ∉ ops

theorem closeless_nil : Closeless [] := ⟨[], rfl, List.not_mem_nil⟩

theorem Closeless.append {first second : List UInt8} (before : Closeless first)
    (after : Closeless second) : Closeless (first ++ second) := by
  obtain ⟨ops, read, none⟩ := before
  obtain ⟨ops', read', none'⟩ := after
  exact ⟨ops ++ ops', opcodes_append read read', by simp [none, none']⟩

theorem closeless_control {ω : Type} (K : Crypto ω) {room : Nat} {op : OpCode} {payload : Span} {w : ω}
    (control : op.isControl = true) (open' : op ≠ .close)
    (counted : payload.size ≤ 125 → payload.bytes.length = payload.size) :
    Closeless (writeControlFrame K room op payload w).1 := by
  refine ⟨_, opcodes_writeControlFrame K control counted, ?_⟩
  split
  · exact List.not_mem_nil
  · simpa using Ne.symm open'

variable {ω : Type} {C : Codec ω}

/-- A codec that writes whole frames, and no close frame. -/
structure Codec.NeverCloses (C : Codec ω) : Prop where
  onText : ∀ f, C.onText = some f → ∀ {st io payload w status st' io' w'},
    f st io payload w = some (status, st', io', w') → io.Valid → Closeless (io.tx.appended io'.tx)
  onBinary : ∀ f, C.onBinary = some f → ∀ {st io payload w status st' io' w'},
    f st io payload w = some (status, st', io', w') → io.Valid → Closeless (io.tx.appended io'.tx)

/-- The frame at the front of `input` ends a message that is a close frame. -/
def handsClose (stored : OpCode) (input : List UInt8) : Bool :=
  match parseFrame input with
  | .ok out =>
      if ¬ out.frame.fin ∨ out.frame.op = .cont then out.frame.fin && stored = .close
      else out.frame.op = .close
  | _ => false

namespace WebSocketSession

variable {K : Crypto ω} {s s' : WebSocketSession C} {io io' : Io} {w w' : ω} {status : Status}

theorem callCodec_closeless {op : OpCode} {payload : Span}
    {handler : Option (C.State → Io → Span → ω → Option (Status × C.State × Io × ω))}
    (never : ∀ f, handler = some f → ∀ {st io payload w status st' io' w'},
      f st io payload w = some (status, st', io', w') → io.Valid → Closeless (io.tx.appended io'.tx))
    (valid : io.Valid) (answered : callCodec op handler s io payload w = some (status, s', io', w')) :
    Closeless (io.tx.appended io'.tx) := by
  unfold callCodec at answered
  cases handler with
  | none =>
      cases answered
      rw [Buffer.appended_self]
      exact closeless_nil
  | some f =>
      obtain ⟨⟨status₁, codec, io₁, w₁⟩, called, same⟩ := Option.map_eq_some_iff.mp answered
      cases same
      exact never f rfl called valid

theorem handleFrame_closeless (never : C.NeverCloses) (valid : io.Valid) {opcode : OpCode}
    {payload : Span} (counted : payload.size ≤ 125 → payload.bytes.length = payload.size)
    (noReply : opcode = .close → io.tx.wsize < 8)
    (answered : handleFrame K s io opcode payload w = some (status, s', io', w')) :
    Closeless (io.tx.appended io'.tx) := by
  have silent : Closeless (io.tx.appended io.tx) := by
    rw [Buffer.appended_self]
    exact closeless_nil
  cases opcode with
  | cont | pong | reserved =>
      cases answered
      exact silent
  | text => exact callCodec_closeless never.onText valid answered
  | binary => exact callCodec_closeless never.onBinary valid answered
  | close =>
      have full := noReply rfl
      simp only [handleFrame] at answered
      rw [if_neg (by omega)] at answered
      cases answered
      exact silent
  | ping =>
      simp only [handleFrame] at answered
      split at answered
      · cases answered
        exact silent
      split at answered
      · cases answered
        exact silent
      · rename_i long _
        cases answered
        rw [Buffer.appended_write tx_small valid.tx (writeControlFrame_fits K w (counted (by omega)).le)]
        exact closeless_control K rfl (by simp) counted

theorem addFragment_closeless (never : C.NeverCloses) (valid : io.Valid) {frame : FrameView}
    (noReply : frame.fin = true → s.opcode = .close → io.tx.wsize < 8)
    (answered : addFragment K s io frame w = some (status, s', io', w')) :
    Closeless (io.tx.appended io'.tx) := by
  have silent : Closeless (io.tx.appended io.tx) := by
    rw [Buffer.appended_self]
    exact closeless_nil
  unfold addFragment at answered
  split at answered
  · cases answered
    exact silent
  split at answered
  · cases answered
    exact silent
  split at answered
  · cases answered
  simp only at answered
  split at answered
  · rename_i finished
    obtain ⟨⟨status₁, s₁, io₁, w₁⟩, called, same⟩ := Option.map_eq_some_iff.mp answered
    cases same
    exact handleFrame_closeless never valid (fun _ => rfl) (noReply finished) called
  · split at answered <;> cases answered <;> exact silent

/-- A frame that is handed over leaves no close behind, unless it is one and there is room to
reply. -/
theorem dispatchFrame_closeless (never : C.NeverCloses) (valid : io.Valid)
    (noReply : handsClose s.opcode io.rx.rbuf = true → io.tx.wsize < 8)
    (answered : dispatchFrame K s io w = some (status, s', io', w')) :
    Closeless (io.tx.appended io'.tx) := by
  unfold dispatchFrame at answered
  unfold handsClose at noReply
  cases parsed : parseFrame io.rx.rbuf with
  | ok out =>
      have inside := (parseFrame_within parsed).1
      rw [Buffer.rbuf_length] at inside
      have valid' : Io.Valid { io with rx := io.rx.incRpos out.consumed } :=
        ⟨Buffer.incRpos_valid rx_small valid.rx inside, valid.tx⟩
      rw [parsed] at answered noReply
      dsimp only at answered noReply
      split at answered
      · rename_i fragment
        rw [if_pos fragment] at noReply
        have unanswered : out.frame.fin = true → s.opcode = .close → io.tx.wsize < 8 := by
          intro finished close
          apply noReply
          simp [finished, close]
        have kept := addFragment_closeless never valid' unanswered answered
        exact kept
      · rename_i single
        rw [if_neg single] at noReply
        have unanswered : out.frame.op = .close → io.tx.wsize < 8 := by
          intro close
          apply noReply
          simp [close]
        have kept := handleFrame_closeless never valid' (parseFrame_counted parsed) unanswered answered
        exact kept
  | needMore | maskedServer | badReserved =>
      rw [parsed] at answered
      cases answered
      rw [Buffer.appended_self]
      exact closeless_nil

theorem heartbeat_closeless {tx tx' : Buffer TX_CAP} (valid : tx.Valid)
    (answered : heartbeat K s tx w = some (s', tx', w')) : s' = s ∧ Closeless (tx.appended tx') := by
  simp only [heartbeat, Option.some.injEq, Prod.mk.injEq] at answered
  obtain ⟨rfl, rfl, -⟩ := answered
  have fits : (writeControlFrame K tx.wsize .ping ⟨[], 0⟩ w).1.length ≤ tx.wsize :=
    writeControlFrame_fits K w (Nat.le_refl 0)
  rw [Buffer.appended_write tx_small valid fits]
  exact ⟨rfl, closeless_control K rfl (by simp) fun _ => rfl⟩

/-- `on_shutdown` answers `close` with a close frame, or an error with nothing. -/
theorem onShutdown_closes (valid : io.tx.Valid)
    (answered : onShutdown K s io w = some (status, s', io', w')) :
    status ≠ .ok ∧ s'.opcode = s.opcode ∧
      (opcodes (io.tx.appended io'.tx) = some [] ∨ opcodes (io.tx.appended io'.tx) = some [.close]) := by
  simp only [onShutdown, Option.some.injEq, Prod.mk.injEq] at answered
  obtain ⟨rfl, rfl, rfl, -⟩ := answered
  refine ⟨?_, ?_, ?_⟩
  · split
    · split <;> simp
    · split <;> simp
  · split <;> rfl
  · rw [Buffer.appended_write tx_small valid (writeClose_fits K _)]
    exact opcodes_writeClose K

end WebSocketSession

end Manet.Protocol
