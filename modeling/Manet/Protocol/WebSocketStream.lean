/-
# Manet.Protocol.WebSocketStream — a session does not see how its stream is cut

`Reaction` describes a codec that is deterministic and leaves RX alone.  Over such a
codec, and while TX has room, `on_data` is a consumer in the sense of
`Manet.Flow.Consumer`: `Reaction.step` says what one call takes and writes, given the
unread bytes, and `onData_eq` that the handler does that to the buffers.

The consumer is stable on streams whose 64-bit length fields have the top bit clear
(`step_stable`): a complete response and a complete frame are read the same whatever
follows them, and everything else waits.  So every division of a stream into chunks is
served as the whole stream is (`chunks_agree`).
-/
import Manet.Flow.Consumer
import Manet.Protocol.WebSocketSession

namespace Manet.Protocol

open Manet.Flow Manet.Reactor

set_option autoImplicit false

/-! ## Codecs that only answer -/

/-- What a call says: its status, the state it leaves, and what it writes. -/
structure Reply (σ ω : Type) where
  status : Status
  state : σ
  output : List UInt8
  world : ω

variable {ω : Type}

/-- The handler gives the reply to any buffers that have room for it. -/
def Replies {σ : Type} (f : σ → Io → Span → ω → Option (Status × σ × Io × ω))
    (react : σ → Span → ω → Reply σ ω) : Prop :=
  ∀ st io payload w, (react st payload w).output.length ≤ io.tx.wsize →
    f st io payload w = some ((react st payload w).status, (react st payload w).state,
      { io with tx := io.tx.write (react st payload w).output }, (react st payload w).world)

/-- A codec that is deterministic and leaves RX alone. -/
structure Reaction (C : Codec ω) where
  onText : C.State → Span → ω → Reply C.State ω
  onBinary : C.State → Span → ω → Reply C.State ω
  text : ∀ f, C.onText = some f → Replies f onText
  binary : ∀ f, C.onBinary = some f → Replies f onBinary

variable {C : Codec ω} (K : Crypto ω) (R : Reaction C)

namespace Reaction

/-- `callCodec`, with room. -/
def call (op : OpCode) (declared : Bool) (react : C.State → Span → ω → Reply C.State ω)
    (s : WebSocketSession C) (payload : Span) (w : ω) : Reply (WebSocketSession C) ω :=
  if declared then
    let r := react s.codec payload w
    { status := r.status
      state := { s with codec := r.state, callbacks := s.callbacks ++ [(op, payload)] }
      output := r.output
      world := r.world }
  else ⟨.ok, s, [], w⟩

/-- `handleFrame`, with room and a whole payload. -/
def frame (s : WebSocketSession C) (payload : Span) (w : ω) :
    OpCode → Reply (WebSocketSession C) ω
  | .text => call .text C.onText.isSome R.onText s payload w
  | .binary => call .binary C.onBinary.isSome R.onBinary s payload w
  | .close => ⟨.close, s, WebSocketSession.closeReply payload fun _ => 0, w⟩
  | .ping =>
      if 126 ≤ payload.size then ⟨.close, s, [], w⟩
      else ⟨.ok, s, (controlFrame K .pong payload w).1, (controlFrame K .pong payload w).2⟩
  | .cont | .pong | .reserved _ => ⟨.ok, s, [], w⟩

/-- `addFragment`, with room and a whole payload. -/
def fragment (s : WebSocketSession C) (f : FrameView) (w : ω) : Reply (WebSocketSession C) ω :=
  if MSG_CAP < sizeAdd s.msg.length f.payload.size then ⟨.error, s, [], w⟩
  else if f.payloadLen ≠ f.payload.size then ⟨.error, s, [], w⟩
  else
    let s := { s with msg := s.msg ++ f.payload.bytes }
    if f.fin then
      let r := R.frame K s ⟨s.msg, s.msg.length⟩ w s.opcode
      { r with state := { r.state with msg := [] } }
    else if f.op ≠ .cont then ⟨.ok, { s with opcode := f.op }, [], w⟩
    else ⟨.ok, s, [], w⟩

/-- The reply to a frame. -/
def reply (s : WebSocketSession C) (f : FrameView) (w : ω) : Reply (WebSocketSession C) ω :=
  if ¬ f.fin ∨ f.op = .cont then R.fragment K s f w else R.frame K s f.payload w f.op

/-- The verdict of a status: only `ok` goes on. -/
def verdict (status : Status) : Option Status := if status = .ok then none else some status

/-- What `on_data` does with the unread bytes, with room. -/
def step (s : WebSocketSession C × ω) (input : List UInt8) :
    Answer (WebSocketSession C × ω) Status UInt8 :=
  match s.1.state with
  | .idle => ⟨some .error, s, 0, []⟩
  | .handshakeSent =>
      match readHandshake s.1.acceptKey.toList input with
      | (_, none) => ⟨none, s, 0, []⟩
      | (status, some n) =>
          if status = .ok then ⟨none, ({ s.1 with state := .listening }, s.2), n, []⟩
          else ⟨some status, s, n, []⟩
  | .listening =>
      match parseFrame input with
      | .needMore => ⟨none, s, 0, []⟩
      | .maskedServer | .badReserved => ⟨some .error, s, 0, []⟩
      | .ok out =>
          let r := R.reply K s.1 out.frame s.2
          ⟨verdict r.status, (r.state, r.world), out.consumed, r.output⟩

variable {s : WebSocketSession C} {io : Io} {w : ω} {payload : Span}

theorem callCodec_eq {op : OpCode}
    {handler : Option (C.State → Io → Span → ω → Option (Status × C.State × Io × ω))}
    {react : C.State → Span → ω → Reply C.State ω}
    (replies : ∀ f, handler = some f → Replies f react) (valid : io.Valid)
    (room : (call op handler.isSome react s payload w).output.length ≤ io.tx.wsize) :
    WebSocketSession.callCodec op handler s io payload w =
      let r := call op handler.isSome react s payload w
      some (r.status, r.state, { io with tx := io.tx.write r.output }, r.world) := by
  cases handler with
  | none => simp [WebSocketSession.callCodec, call, Buffer.write_nil tx_small valid.tx]
  | some f =>
      simp only [WebSocketSession.callCodec, call, Option.isSome_some, if_true] at room ⊢
      rw [replies f rfl s.codec io payload w room]
      rfl

/-- `handle_frame` is the reply to the frame, where there is room for it. -/
theorem handleFrame_eq {op : OpCode} (valid : io.Valid)
    (whole : payload.bytes.length = payload.size)
    (room : (R.frame K s payload w op).output.length ≤ io.tx.wsize) :
    WebSocketSession.handleFrame K s io op payload w =
      let r := R.frame K s payload w op
      some (r.status, r.state, { io with tx := io.tx.write r.output }, r.world) := by
  have silent : io.tx.write [] = io.tx := Buffer.write_nil tx_small valid.tx
  cases op with
  | text => exact callCodec_eq R.text valid room
  | binary => exact callCodec_eq R.binary valid room
  | close =>
      have fits : 8 ≤ io.tx.wsize := room
      simp only [WebSocketSession.handleFrame, if_pos fits, frame]
      rw [WebSocketSession.closeReply_whole whole io.rx.behind fun _ => 0]
  | ping =>
      simp only [WebSocketSession.handleFrame, frame] at room ⊢
      by_cases long : 126 ≤ payload.size
      · simp only [long, if_true, silent]
      · simp only [long, if_false, controlFrame_length] at room ⊢
        have sum : sizeAdd 6 payload.size = 6 + payload.size := sizeAdd_of_lt (by omega)
        have fits : ¬ io.tx.wsize < sizeAdd 6 payload.size := by omega
        rw [if_neg fits, writeControlFrame_of_room K w (by omega) (by omega)]
  | cont | pong | reserved => simp only [WebSocketSession.handleFrame, frame, silent]

theorem addFragment_eq {f : FrameView} (valid : io.Valid)
    (whole : f.payload.bytes.length = f.payload.size)
    (room : (R.fragment K s f w).output.length ≤ io.tx.wsize) :
    WebSocketSession.addFragment K s io f w =
      let r := R.fragment K s f w
      some (r.status, r.state, { io with tx := io.tx.write r.output }, r.world) := by
  have silent : io.tx.write [] = io.tx := Buffer.write_nil tx_small valid.tx
  unfold WebSocketSession.addFragment
  unfold fragment at room ⊢
  split
  · simp only [silent]
  rename_i small
  rw [if_neg small] at room
  split
  · simp only [silent]
  rename_i counted
  rw [if_neg counted] at room
  rw [if_neg (not_not.mpr whole)]
  by_cases fin : f.fin = true
  · simp only [fin, if_true] at room ⊢
    rw [handleFrame_eq K R valid rfl room]
    rfl
  · simp only [fin, Bool.false_eq_true, if_false]
    split <;> simp only [silent]

theorem verdict_getD (status : Status) : (verdict status).getD .ok = status := by
  cases status <;> rfl

/-- `dispatch_frame` on a frame whose payload is there as a whole. -/
theorem dispatchFrame_eq {out : ParseOutput} (valid : io.Valid)
    (parsed : parseFrame io.rx.rbuf = .ok out)
    (whole : out.frame.payload.bytes.length = out.frame.payload.size)
    (room : (R.reply K s out.frame w).output.length ≤ io.tx.wsize) :
    WebSocketSession.dispatchFrame K s io w =
      let r := R.reply K s out.frame w
      some (r.status, r.state, ⟨io.rx.incRpos out.consumed, io.tx.write r.output⟩, r.world) := by
  have complete := (parseFrame_within parsed).1
  rw [Buffer.rbuf_length] at complete
  have consumed : Io.Valid ⟨io.rx.incRpos out.consumed, io.tx⟩ :=
    ⟨Buffer.incRpos_valid rx_small valid.rx complete, valid.tx⟩
  unfold WebSocketSession.dispatchFrame reply
  rw [parsed]
  dsimp only
  unfold reply at room
  split
  · rename_i part
    rw [if_pos part] at room
    exact addFragment_eq K R consumed whole room
  · rename_i entire
    rw [if_neg entire] at room
    exact handleFrame_eq K R consumed whole room

/-- **Where there is room, `on_data` is a step of the consumer.** -/
theorem onData_eq (valid : io.Valid)
    (whole : s.state = .listening → ∀ out, parseFrame io.rx.rbuf = .ok out →
      out.frame.payload.bytes.length = out.frame.payload.size)
    (room : (R.step K (s, w) io.rx.rbuf).output.length ≤ io.tx.wsize) :
    WebSocketSession.onData K s io w =
      let a := R.step K (s, w) io.rx.rbuf
      some (a.verdict.getD .ok, a.state.1, ⟨io.rx.incRpos a.taken, io.tx.write a.output⟩,
        a.state.2) := by
  have still : io.rx.incRpos 0 = io.rx := Buffer.incRpos_zero rx_small valid.rx
  have silent : io.tx.write [] = io.tx := Buffer.write_nil tx_small valid.tx
  unfold WebSocketSession.onData
  unfold step at room ⊢
  cases state : s.state with
  | idle => simp only [still, silent, Option.getD_some]
  | handshakeSent =>
      dsimp only
      rcases read : readHandshake s.acceptKey.toList io.rx.rbuf with ⟨status, _ | n⟩
      · have waits := readHandshake_waits (by rw [read])
        rw [read] at waits
        cases waits
        simp [still, silent]
      · obtain ⟨positive, inside⟩ := readHandshake_consumed read
        rw [Buffer.rbuf_length] at inside
        have moved : (io.rx.incRpos n).rsize ≠ io.rx.rsize := by
          rw [Buffer.rsize_incRpos rx_small valid.rx inside]
          omega
        by_cases ok : status = .ok
        · simp [ok, moved, silent]
        · simp [ok, silent]
  | listening =>
      simp only [state] at room ⊢
      cases parsed : parseFrame io.rx.rbuf with
      | ok out =>
          rw [parsed] at room
          dsimp only
          rw [dispatchFrame_eq K R valid parsed (whole state out parsed) room, verdict_getD]
      | needMore | maskedServer | badReserved =>
          unfold WebSocketSession.dispatchFrame
          rw [parsed]
          simp [still, silent]

end Reaction

/-! ## Streams with small lengths -/

/-- In a stream of frames, every 64-bit length field has its top bit clear. -/
inductive ClearLengths : List UInt8 → Prop where
  | stop {input : List UInt8} (incomplete : wireHeader input = none) : ClearLengths input
  | frame {input : List UInt8} {hdr len : Nat} (header : wireHeader input = some (hdr, len))
      (clear : hdr = 10 → len < 2 ^ 63) (later : ClearLengths (input.drop (hdr + len))) :
      ClearLengths input

/-- The frames a session will find in the stream have small lengths. -/
def WebSocketSession.ClearAhead (s : WebSocketSession C) (input : List UInt8) : Prop :=
  match s.state with
  | .idle => True
  | .handshakeSent => ∀ n, (readHandshake s.acceptKey.toList input).2 = some n →
      ClearLengths (input.drop n)
  | .listening => ClearLengths input

theorem ClearLengths.header {input : List UInt8} (clear : ClearLengths input) {hdr len : Nat}
    (header : wireHeader input = some (hdr, len)) :
    (hdr = 10 → len < 2 ^ 63) ∧ ClearLengths (input.drop (hdr + len)) := by
  cases clear with
  | stop none => rw [none] at header; cases header
  | frame header' clear later =>
      rw [header'] at header
      cases header
      exact ⟨clear, later⟩

theorem ClearLengths.not_wraps {input : List UInt8} (clear : ClearLengths input) :
    ¬ Wraps input := by
  rintro ⟨long, -, second, large⟩
  have is127 : (input.getD 1 0).toNat % 128 = 127 := by rw [second]; rfl
  have header := wireHeader_len64 (by omega) is127
  rw [if_neg (by omega)] at header
  have := (clear.header header).1 rfl
  omega

theorem ClearLengths.shorter {u v : List UInt8} (clear : ClearLengths (u ++ v)) :
    ClearLengths u := by
  generalize input : u ++ v = stream at clear
  induction clear generalizing u with
  | stop none =>
      cases header : wireHeader u with
      | none => exact .stop header
      | some decoded =>
          obtain ⟨hdr, len⟩ := decoded
          have longer := wireHeader_append v header
          rw [input, none] at longer
          cases longer
  | @frame stream hdr len header clear later ih =>
      cases header' : wireHeader u with
      | none => exact .stop header'
      | some decoded =>
          obtain ⟨hdr', len'⟩ := decoded
          have same := wireHeader_append v header'
          rw [input, header] at same
          cases same
          refine .frame header' clear ?_
          by_cases inside : hdr + len ≤ u.length
          · exact ih (by rw [← input, List.drop_append_of_le_length inside])
          · rw [List.drop_of_length_le (by omega)]
            exact .stop rfl

/-- What a frame of such a stream takes is its size, its payload is there as a whole, and
the stream goes on behind it. -/
theorem ClearLengths.parsed {input : List UInt8} (clear : ClearLengths input) {out : ParseOutput}
    (accepted : parseFrame input = .ok out) :
    0 < out.consumed ∧ out.frame.payload.bytes.length = out.frame.payload.size ∧
      ClearLengths (input.drop out.consumed) := by
  obtain ⟨plain, unmasked, hdr, len, header, complete, rfl⟩ := parseFrame_ok accepted
  have small := wireHeader_small header plain unmasked clear.not_wraps
  obtain ⟨-, -, layout⟩ := wireHeader_cases header
  rw [Nat.mod_eq_of_lt small] at complete
  rw [reportedFrame_eq input (wireHeader_pos header) small]
  refine ⟨?_, ?_, (clear.header header).2⟩
  · simp only [wireFrame]
    omega
  · simp only [wireFrame, List.length_take, List.length_drop]
    omega

/-! ## Stability -/

section Stability

variable {K} {R}

theorem step_idle {s : WebSocketSession C × ω} (input : List UInt8) (state : s.1.state = .idle) :
    R.step K s input = ⟨some .error, s, 0, []⟩ := by
  simp only [Reaction.step, state]

theorem step_sent {s : WebSocketSession C × ω} (input : List UInt8)
    (state : s.1.state = .handshakeSent) :
    R.step K s input =
      match readHandshake s.1.acceptKey.toList input with
      | (_, none) => ⟨none, s, 0, []⟩
      | (status, some n) =>
          if status = .ok then ⟨none, ({ s.1 with state := .listening }, s.2), n, []⟩
          else ⟨some status, s, n, []⟩ := by
  simp only [Reaction.step, state]

theorem step_listening {s : WebSocketSession C × ω} (input : List UInt8)
    (state : s.1.state = .listening) :
    R.step K s input =
      match parseFrame input with
      | .needMore => ⟨none, s, 0, []⟩
      | .maskedServer | .badReserved => ⟨some .error, s, 0, []⟩
      | .ok out =>
          let r := R.reply K s.1 out.frame s.2
          ⟨Reaction.verdict r.status, (r.state, r.world), out.consumed, r.output⟩ := by
  simp only [Reaction.step, state]

theorem frame_state (s : WebSocketSession C) (payload : Span) (w : ω) (op : OpCode) :
    (R.frame K s payload w op).state.state = s.state := by
  cases op with
  | text | binary =>
      simp only [Reaction.frame, Reaction.call]
      split <;> rfl
  | ping =>
      simp only [Reaction.frame]
      split <;> rfl
  | cont | close | pong | reserved => rfl

theorem reply_state (s : WebSocketSession C) (f : FrameView) (w : ω) :
    (R.reply K s f w).state.state = s.state := by
  unfold Reaction.reply
  split
  swap
  · exact frame_state _ _ _ _
  unfold Reaction.fragment
  split
  · rfl
  split
  · rfl
  dsimp only
  split
  · exact frame_state _ _ _ _
  split <;> rfl

theorem clear_listening {s : WebSocketSession C} {u : List UInt8} (state : s.state = .listening)
    (clear : s.ClearAhead u) : ClearLengths u := by
  simpa only [WebSocketSession.ClearAhead, state] using clear

/-- **The session is a stable consumer of streams with small lengths.** -/
theorem step_stable : Stable (fun s input => s.1.ClearAhead input) (R.step K) where
  idle s u clear waits := by
    cases state : s.1.state with
    | idle => rw [step_idle u state]; exact ⟨rfl, rfl⟩
    | handshakeSent =>
        rw [step_sent u state] at waits ⊢
        rcases read : readHandshake s.1.acceptKey.toList u with ⟨status, _ | n⟩
        · exact ⟨rfl, rfl⟩
        · have positive := (readHandshake_consumed read).1
          rw [read] at waits
          dsimp only at waits
          split at waits
          · exact absurd waits.2 (by dsimp only; omega)
          · cases waits.1
    | listening =>
        have clear' := clear_listening state clear
        rw [step_listening u state] at waits ⊢
        cases parsed : parseFrame u with
        | ok out =>
            have positive := (clear'.parsed parsed).1
            rw [parsed] at waits
            exact absurd waits.2 (by dsimp only; omega)
        | needMore | maskedServer | badReserved => exact ⟨rfl, rfl⟩
  inside s u _ := by
    cases state : s.1.state with
    | idle => rw [step_idle u state]; exact Nat.zero_le _
    | handshakeSent =>
        rw [step_sent u state]
        rcases read : readHandshake s.1.acceptKey.toList u with ⟨status, _ | n⟩
        · exact Nat.zero_le _
        · have inside := (readHandshake_consumed read).2
          dsimp only
          split <;> exact inside
    | listening =>
        rw [step_listening u state]
        cases parsed : parseFrame u with
        | ok out => exact (parseFrame_within parsed).1
        | needMore | maskedServer | badReserved => exact Nat.zero_le _
  decided s u v clear decided := by
    cases state : s.1.state with
    | idle => rw [step_idle u state, step_idle (u ++ v) state]
    | handshakeSent =>
        rw [step_sent u state] at decided ⊢
        rw [step_sent (u ++ v) state]
        rcases read : readHandshake s.1.acceptKey.toList u with ⟨status, _ | n⟩
        · rw [read] at decided
          exact absurd ⟨rfl, rfl⟩ decided
        · rw [readHandshake_append v (by rw [read]; simp), read]
    | listening =>
        have clear' := clear_listening state clear
        rw [step_listening u state] at decided ⊢
        rw [step_listening (u ++ v) state]
        by_cases more : parseFrame u = .needMore
        · rw [more] at decided
          exact absurd ⟨rfl, rfl⟩ decided
        · rw [parseFrame_append v clear'.not_wraps more]
  shorter s u v clear := by
    unfold WebSocketSession.ClearAhead at clear ⊢
    cases state : s.1.state with
    | idle => trivial
    | handshakeSent =>
        rw [state] at clear
        intro n read
        have inside : n ≤ u.length := (readHandshake_consumed (Prod.ext rfl read)).2
        have longer := clear n (by rw [readHandshake_append v (by rw [read]; simp)]; exact read)
        rw [List.drop_append_of_le_length inside] at longer
        exact longer.shorter
    | listening =>
        rw [state] at clear
        exact clear.shorter
  next s u clear goesOn := by
    cases state : s.1.state with
    | idle => rw [step_idle u state] at goesOn; cases goesOn
    | handshakeSent =>
        rw [step_sent u state] at goesOn ⊢
        rcases read : readHandshake s.1.acceptKey.toList u with ⟨status, _ | n⟩
        · simpa using clear
        · rw [read] at goesOn
          dsimp only at goesOn ⊢
          split at goesOn
          · rename_i ok
            rw [if_pos ok]
            simp only [WebSocketSession.ClearAhead, state] at clear ⊢
            exact clear n (by rw [read])
          · cases goesOn
    | listening =>
        have clear' := clear_listening state clear
        rw [step_listening u state] at goesOn ⊢
        cases parsed : parseFrame u with
        | ok out =>
            have later := (clear'.parsed parsed).2.2
            simp only [WebSocketSession.ClearAhead, reply_state, state]
            exact later
        | needMore => exact clear
        | maskedServer | badReserved => rw [parsed] at goesOn; cases goesOn

end Stability

/-! ## Serving a stream -/

namespace WebSocketSession

/-- The loop of `protocol_consume`, on a session and its buffers. -/
def consume : Nat → WebSocketSession C → Io → ω → Option (Status × WebSocketSession C × Io × ω)
  | 0, _, _, _ => none
  | fuel + 1, s, io, w =>
      if io.rx.rsize = 0 then some (.ok, s, io, w)
      else
        match onData K s io w with
        | none => none
        | some (status, s', io', w') =>
            if status ≠ .ok then some (status, s', io', w')
            else if io.rx.rsize ≤ io'.rx.rsize then some (.ok, s', io', w')
            else consume fuel s' io' w'

/-- Chunks appended to RX one after the other, and consumed after each. -/
def serve (fuel : Nat) : List (List UInt8) → WebSocketSession C → Io → ω →
    Option (Status × WebSocketSession C × Io × ω)
  | [], s, io, w => some (.ok, s, io, w)
  | chunk :: later, s, io, w =>
      match consume K fuel s { io with rx := io.rx.write chunk } w with
      | none => none
      | some (status, s', io', w') =>
          if status ≠ .ok then some (status, s', io', w') else serve fuel later s' io' w'

end WebSocketSession

/-- The buffers after an outcome: what is left, and what was written. -/
structure Served (io : Io) (rest output : List UInt8) (io' : Io) : Prop where
  valid : io'.Valid
  unread : io'.rx.rbuf = rest
  written : io'.tx.rbuf = io.tx.rbuf ++ output
  room : io'.tx.wsize = io.tx.wsize - output.length
  space : io.rx.wsize ≤ io'.rx.wsize

theorem Served.trans {io io₁ io₂ : Io} {rest rest' output output' : List UInt8}
    (first : Served io rest output io₁) (second : Served io₁ rest' output' io₂) :
    Served io rest' (output ++ output') io₂ where
  valid := second.valid
  unread := second.unread
  written := by rw [second.written, first.written, List.append_assoc]
  room := by rw [second.room, first.room, List.length_append]; omega
  space := Nat.le_trans first.space second.space

theorem served_step {io : Io} (valid : io.Valid) {n : Nat} {output : List UInt8}
    (inside : n ≤ io.rx.rbuf.length) (room : output.length ≤ io.tx.wsize) :
    Served io (io.rx.rbuf.drop n) output ⟨io.rx.incRpos n, io.tx.write output⟩ := by
  rw [Buffer.rbuf_length] at inside
  exact
    { valid := ⟨Buffer.incRpos_valid rx_small valid.rx inside,
        Buffer.write_valid tx_small valid.tx room⟩
      unread := Buffer.rbuf_incRpos rx_small valid.rx inside
      written := Buffer.rbuf_write tx_small valid.tx room
      room := Buffer.wsize_write tx_small valid.tx room
      space := Buffer.wsize_incRpos rx_small valid.rx inside }

section Serve

variable {K} {R}

/-- One call, on buffers with room. -/
theorem onData_served {s : WebSocketSession C × ω} {u : List UInt8} {io : Io}
    (clear : s.1.ClearAhead u) (valid : io.Valid) (unread : io.rx.rbuf = u)
    (room : (R.step K s u).output.length ≤ io.tx.wsize) :
    ∃ io', WebSocketSession.onData K s.1 io s.2 =
        some ((R.step K s u).verdict.getD .ok, (R.step K s u).state.1, io',
          (R.step K s u).state.2) ∧
      Served io (u.drop (R.step K s u).taken) (R.step K s u).output io' := by
  subst unread
  have inside := (step_stable (K := K) (R := R)).inside s _ clear
  refine ⟨_, Reaction.onData_eq K R valid ?_ room, served_step valid inside room⟩
  intro state out parsed
  simp only [WebSocketSession.ClearAhead, state] at clear
  exact (clear.parsed parsed).2.1

/-- Only a status other than `ok` stops the consumer. -/
theorem step_stops {s : WebSocketSession C × ω} {u : List UInt8} {status : Status}
    (stops : (R.step K s u).verdict = some status) : status ≠ .ok := by
  cases state : s.1.state with
  | idle =>
      rw [step_idle u state] at stops
      cases stops
      simp
  | handshakeSent =>
      rw [step_sent u state] at stops
      rcases read : readHandshake s.1.acceptKey.toList u with ⟨answer, _ | n⟩
      · rw [read] at stops; cases stops
      · rw [read] at stops
        dsimp only at stops
        split at stops
        · cases stops
        · rename_i bad
          cases stops
          exact bad
  | listening =>
      rw [step_listening u state] at stops
      cases parsed : parseFrame u with
      | ok out =>
          rw [parsed] at stops
          simp only [Reaction.verdict] at stops
          split at stops
          · cases stops
          · rename_i bad
            cases stops
            exact bad
      | needMore => rw [parsed] at stops; cases stops
      | maskedServer | badReserved =>
          rw [parsed] at stops
          cases stops
          simp

/-- The loop drains the unread bytes. -/
theorem consume_drains {s : WebSocketSession C × ω} {u : List UInt8} {io : Io} {fuel : Nat}
    (clear : s.1.ClearAhead u) (valid : io.Valid) (unread : io.rx.rbuf = u)
    (room : (drain (R.step K) s u).output.length ≤ io.tx.wsize) (enough : u.length < fuel) :
    ∃ io', WebSocketSession.consume K fuel s.1 io s.2 =
        some ((drain (R.step K) s u).verdict.getD .ok, (drain (R.step K) s u).state.1, io',
          (drain (R.step K) s u).state.2) ∧
      Served io (drain (R.step K) s u).rest (drain (R.step K) s u).output io' := by
  have size : ∀ {io : Io} {u : List UInt8}, io.rx.rbuf = u → io.rx.rsize = u.length := by
    rintro io _ rfl
    exact (Buffer.rbuf_length io.rx).symm
  obtain ⟨fuel, rfl⟩ : ∃ n, fuel = n + 1 := ⟨fuel - 1, by omega⟩
  induction s, u using drain_induct (R.step K) generalizing io fuel with
  | nil s =>
      have empty : io.rx.rsize = 0 := size unread
      refine ⟨io, by simp [WebSocketSession.consume, empty], ⟨valid, unread, ?_, ?_, ?_⟩⟩
      all_goals simp
  | stop s u status notEmpty verdict =>
      have some' : io.rx.rsize ≠ 0 := by simp [size unread, notEmpty]
      rw [drain_stop notEmpty verdict] at room ⊢
      obtain ⟨io', answered, served⟩ := onData_served clear valid unread room
      rw [verdict] at answered
      have stops : status ≠ .ok := step_stops verdict
      refine ⟨io', ?_, served⟩
      simp [WebSocketSession.consume, some', answered, stops]
  | wait s u notEmpty waits =>
      have some' : io.rx.rsize ≠ 0 := by simp [size unread, notEmpty]
      rw [drain_wait notEmpty waits] at room ⊢
      obtain ⟨io', answered, served⟩ := onData_served clear valid unread room
      rw [waits.1] at answered
      rw [waits.2, List.drop_zero] at served
      have same : io.rx.rsize ≤ io'.rx.rsize := by rw [size unread, size served.unread]
      refine ⟨io', ?_, served⟩
      simp [WebSocketSession.consume, some', answered, same]
  | more s u notEmpty verdict takes ih =>
      have some' : io.rx.rsize ≠ 0 := by simp [size unread, notEmpty]
      have positive : 0 < u.length := List.length_pos_iff.mpr notEmpty
      rw [drain_more notEmpty verdict takes] at room ⊢
      simp only [Outcome.after, List.length_append] at room
      have fits : (R.step K s u).output.length ≤ io.tx.wsize := by omega
      obtain ⟨io', answered, served⟩ := onData_served clear valid unread fits
      rw [verdict] at answered
      have shorter : (u.drop (R.step K s u).taken).length < u.length := by
        rw [List.length_drop]
        omega
      have progress : ¬ io.rx.rsize ≤ io'.rx.rsize := by
        rw [size unread, size served.unread]
        omega
      obtain ⟨fuel, rfl⟩ : ∃ n, fuel = n + 1 := ⟨fuel - 1, by omega⟩
      obtain ⟨io₂, further, served₂⟩ := ih (step_stable.next s u clear verdict) served.valid
        served.unread (by rw [served.room]; omega) fuel (by omega)
      refine ⟨io₂, ?_, served.trans served₂⟩
      rw [WebSocketSession.consume]
      simp only [some', answered, progress, if_false]
      exact further

/-- The chunks are delivered as the consumer's pieces. -/
theorem serve_delivers {s : WebSocketSession C × ω} {io : Io} {chunks : List (List UInt8)}
    {fuel : Nat} (clear : s.1.ClearAhead (io.rx.rbuf ++ chunks.flatten)) (valid : io.Valid)
    (fits : chunks.flatten.length ≤ io.rx.wsize)
    (room : (deliver (R.step K) s io.rx.rbuf chunks).output.length ≤ io.tx.wsize)
    (enough : io.rx.rsize + chunks.flatten.length < fuel) :
    ∃ io', WebSocketSession.serve K fuel chunks s.1 io s.2 =
        some ((deliver (R.step K) s io.rx.rbuf chunks).verdict.getD .ok,
          (deliver (R.step K) s io.rx.rbuf chunks).state.1, io',
          (deliver (R.step K) s io.rx.rbuf chunks).state.2) ∧
      io'.rx.rbuf = (deliver (R.step K) s io.rx.rbuf chunks).rest ∧
      io'.tx.rbuf = io.tx.rbuf ++ (deliver (R.step K) s io.rx.rbuf chunks).output := by
  induction chunks generalizing s io with
  | nil => exact ⟨io, rfl, rfl, (List.append_nil _).symm⟩
  | cons chunk later ih =>
      rw [List.flatten_cons, List.length_append] at fits enough
      rw [List.flatten_cons, ← List.append_assoc] at clear
      have small : chunk.length ≤ io.rx.wsize := by omega
      -- the chunk is appended, and what is there is drained
      have valid₁ : Io.Valid { io with rx := io.rx.write chunk } :=
        ⟨Buffer.write_valid rx_small valid.rx small, valid.tx⟩
      have unread : (io.rx.write chunk).rbuf = io.rx.rbuf ++ chunk :=
        Buffer.rbuf_write rx_small valid.rx small
      have space : (io.rx.write chunk).wsize = io.rx.wsize - chunk.length :=
        Buffer.wsize_write rx_small valid.rx small
      have stable := step_stable (K := K) (R := R)
      simp only [deliver] at room ⊢
      generalize drained : drain (R.step K) s (io.rx.rbuf ++ chunk) = o at room ⊢
      have enough₁ : (io.rx.rbuf ++ chunk).length < fuel := by
        rw [List.length_append, Buffer.rbuf_length]
        omega
      have outputs : o.output.length ≤ io.tx.wsize := by
        cases verdict : o.verdict with
        | some r => simpa only [verdict] using room
        | none =>
            simp only [verdict, Outcome.after, List.length_append] at room
            omega
      have start : s.1.ClearAhead (io.rx.rbuf ++ chunk) := stable.shorter s _ _ clear
      have room₀ : (drain (R.step K) s (io.rx.rbuf ++ chunk)).output.length ≤ io.tx.wsize := by
        rw [drained]
        exact outputs
      obtain ⟨io₁, consumed, served⟩ := consume_drains start valid₁ unread room₀ enough₁
      rw [drained] at consumed served
      rw [WebSocketSession.serve, consumed]
      cases verdict : o.verdict with
      | some status =>
          have stops : status ≠ .ok :=
            drain_stops (fun _ _ _ => step_stops) (by rw [drained]; exact verdict)
          refine ⟨io₁, ?_, served.unread, served.written⟩
          simp [stops, verdict]
      | none =>
          have clear₁ := stable.good_drain clear (by rw [drained]; exact verdict)
          rw [drained, ← served.unread] at clear₁
          have left : io₁.rx.rsize ≤ (io.rx.rbuf ++ chunk).length := by
            rw [← Buffer.rbuf_length, served.unread, ← drained]
            exact drain_rest_length s _
          rw [List.length_append, Buffer.rbuf_length] at left
          simp only [verdict, Outcome.after, List.length_append, ← served.unread] at room
          have room₁ : io₁.tx.wsize = io.tx.wsize - o.output.length := served.room
          have space₁ : (io.rx.write chunk).wsize ≤ io₁.rx.wsize := served.space
          obtain ⟨io₂, further, unread₂, written₂⟩ := ih clear₁ served.valid (by omega) (by omega)
            (by omega)
          refine ⟨io₂, ?_, ?_, ?_⟩
          · simp only [Option.getD_none, ne_eq, not_true_eq_false, if_false, Outcome.after,
              ← served.unread]
            exact further
          · simp only [Outcome.after, ← served.unread]
            exact unread₂
          · simp only [Outcome.after, ← served.unread]
            rw [written₂, served.written, List.append_assoc]

/-- **A session does not see how its stream is cut.**  Whatever the chunks, the status,
the session with its callbacks, the bytes written and the world are those of the whole
stream in one chunk, and so is the rest if the status is `ok`. -/
theorem chunks_agree (R : Reaction C) (s : WebSocketSession C) (w : ω) {io : Io}
    (valid : io.Valid) (empty : io.rx.rsize = 0) (chunks : List (List UInt8))
    (fits : chunks.flatten.length ≤ RX_CAP) (clear : s.ClearAhead chunks.flatten)
    (room : (drain (R.step K) (s, w) chunks.flatten).output.length ≤ io.tx.wsize) {fuel : Nat}
    (enough : chunks.flatten.length < fuel) :
    ∃ status s' w' io₁ io₂,
      WebSocketSession.serve K fuel chunks s io w = some (status, s', io₁, w') ∧
      WebSocketSession.serve K fuel [chunks.flatten] s io w = some (status, s', io₂, w') ∧
      io₁.tx.rbuf = io₂.tx.rbuf ∧ (status = .ok → io₁.rx.rbuf = io₂.rx.rbuf) := by
  have unread : io.rx.rbuf = [] := (Buffer.rbuf_eq_nil_iff io.rx).mpr empty
  have space : io.rx.wsize = RX_CAP := by
    have order := valid.rx.ordered
    have size := Buffer.rsize_eq valid.rx
    have start := valid.rx.rewound (by omega)
    rw [Buffer.wsize_eq valid.rx]
    omega
  -- both deliveries agree with draining the stream, so with one another
  have served : ∀ pieces : List (List UInt8), pieces.flatten = chunks.flatten →
      ∃ io', WebSocketSession.serve K fuel pieces s io w =
          some ((drain (R.step K) (s, w) chunks.flatten).verdict.getD .ok,
            (drain (R.step K) (s, w) chunks.flatten).state.1, io',
            (drain (R.step K) (s, w) chunks.flatten).state.2) ∧
        ((drain (R.step K) (s, w) chunks.flatten).verdict = none →
          io'.rx.rbuf = (drain (R.step K) (s, w) chunks.flatten).rest) ∧
        io'.tx.rbuf = io.tx.rbuf ++ (drain (R.step K) (s, w) chunks.flatten).output := by
    intro pieces same
    have agrees := (step_stable (K := K) (R := R)).deliver_agrees (s := (s, w)) (u := [])
      (by rw [List.nil_append, same]; exact clear) rfl
    rw [List.nil_append, same] at agrees
    obtain ⟨verdict, state, output, rest⟩ := agrees
    have ahead : (s, w).1.ClearAhead (io.rx.rbuf ++ pieces.flatten) := by
      rw [unread, same]
      exact clear
    have steps : io.rx.rsize + pieces.flatten.length < fuel := by rw [same]; omega
    have delivered := serve_delivers (K := K) (R := R) ahead valid (by rw [same]; omega)
      (by rw [unread, output]; exact room) steps
    rw [unread, verdict, state, output] at delivered
    obtain ⟨io', result, left, written⟩ := delivered
    exact ⟨io', result, fun goesOn => left.trans (rest (verdict.trans goesOn)), written⟩
  obtain ⟨io₁, result₁, rest₁, written₁⟩ := served chunks rfl
  obtain ⟨io₂, result₂, rest₂, written₂⟩ := served [chunks.flatten] (by simp)
  refine ⟨_, _, _, io₁, io₂, result₁, result₂, written₁.trans written₂.symm, ?_⟩
  intro ok
  have goesOn : (drain (R.step K) (s, w) chunks.flatten).verdict = none := by
    cases verdict : (drain (R.step K) (s, w) chunks.flatten).verdict with
    | none => rfl
    | some status =>
        rw [verdict] at ok
        exact absurd ok (drain_stops (fun _ _ _ => step_stops) verdict)
  exact (rest₁ goesOn).trans (rest₂ goesOn).symm

end Serve

def parrotReaction : Reaction (parrot : Codec ω) where
  onText st payload w := ⟨.ok, st, payload.bytes, w⟩
  onBinary st payload w := ⟨.ok, st, payload.bytes, w⟩
  text f declared st io payload w room := by
    rw [← Option.some.inj declared]
    exact if_pos room
  binary f declared st io payload w room := by
    rw [← Option.some.inj declared]
    exact if_pos room

/-- A session that has sent its request. -/
def awaiting : WebSocketSession (parrot : Codec Unit) :=
  { WebSocketSession.make .cont "host" ⟨"/", [], ()⟩ with
    state := .handshakeSent, acceptKey := acceptKeyFor (zeroCrypto : Crypto Unit) [] }

/-- The response and a message, cut inside the response and inside the frame's header. -/
def scattered : List (List UInt8) :=
  [zeroResponse.take 30, zeroResponse.drop 30 ++ [0x81], [2, 0x68], [0x69]]

theorem chunks_agree_scattered :
    (WebSocketSession.serve zeroCrypto 99 scattered awaiting ⟨.init, .init⟩ ()).map
        (fun result => (result.1, result.2.1.callbacks)) =
      some (.ok, [(.text, ⟨[0x68, 0x69], 2⟩)]) ∧
    ∃ status s' w' io₁ io₂,
      WebSocketSession.serve zeroCrypto 99 scattered awaiting ⟨.init, .init⟩ () =
        some (status, s', io₁, w') ∧
      WebSocketSession.serve zeroCrypto 99 [scattered.flatten] awaiting ⟨.init, .init⟩ () =
        some (status, s', io₂, w') ∧
      io₁.tx.rbuf = io₂.tx.rbuf ∧ (status = .ok → io₁.rx.rbuf = io₂.rx.rbuf) := by
  refine ⟨by decide +kernel, ?_⟩
  have response : readHandshake awaiting.acceptKey.toList scattered.flatten = (.ok, some 71) := by
    decide +kernel
  have clear : awaiting.ClearAhead scattered.flatten := by
    intro n read
    rw [response] at read
    cases read
    have later : scattered.flatten.drop 71 = [0x81, 2, 0x68, 0x69] := by decide +kernel
    rw [later]
    exact .frame (by decide : wireHeader [0x81, 2, 0x68, 0x69] = some (2, 2)) (by decide) (.stop rfl)
  exact chunks_agree parrotReaction awaiting () ⟨Buffer.init_valid, Buffer.init_valid⟩
    (by decide +kernel) scattered (by decide +kernel) clear (by decide +kernel) (by decide +kernel)

end Manet.Protocol
