/-
# Manet.Protocol.WebSocketMessages — reassembly in a session

A listening session and the messages of `Manet.Protocol.Fragmentation`.  `receive` is
`on_data` call after call, on the windows the reactor offers.  A window is what the call before
has left in RX and what has come in since (`Threads`); for a codec that leaves RX alone, a stream
that brings complete frames (`Brings`) then has every window begin with the next of them.  For any
other codec that is assumed of the windows (`Presents`).

The session keeps no mark of a message in progress: only `msg_len` and the last opcode.
`Assembling` relates them to the assembly of the frames so far, and one call keeps the
relation on every frame the rules allow (`onData_takes`).  A frame they do not allow is
noticed only where it overflows the message buffer.  So what the codec is given is what
was sent, in every run whose frames keep the rules (`reassembly_genuine`), and there it
is all that was sent (`messages_delivered`).
-/
import Mathlib.Data.List.Forall2
import Manet.Protocol.Fragmentation
import Manet.Protocol.WebSocketSession

namespace Manet.Protocol

open Manet.Reactor

set_option autoImplicit false

/-- The input begins with the frame, complete and unmasked, under any of the headers. -/
def Carries (input : List UInt8) (f : Frame) : Prop :=
  rsv (input.getD 0 0) = 0 ∧ masked (input.getD 1 0) = false ∧
    ∃ hdr len, wireHeader input = some (hdr, len) ∧ hdr + len ≤ input.length ∧
      f = ⟨toOp (input.getD 0 0), finBit (input.getD 0 0), (input.drop hdr).take len⟩

def Frame.span (f : Frame) : Span := ⟨f.payload, f.payload.length⟩

def Frame.view (f : Frame) : FrameView := ⟨f.op, f.fin, f.span, f.payload.length⟩

/-- What a codec's handler is given for a message. -/
def Message.call (m : Message) : OpCode × Span := (m.op, ⟨m.payload, m.payload.length⟩)

theorem Carries.parsed {input : List UInt8} {f : Frame} (carries : Carries input f)
    (small : input.length < 2 ^ 64) :
    ∃ hdr len, wireHeader input = some (hdr, len) ∧ hdr + len ≤ input.length ∧
      parseFrame input = .ok ⟨f.view, hdr + len⟩ := by
  obtain ⟨clear, unmasked, hdr, len, header, complete, rfl⟩ := carries
  obtain ⟨long, -, -⟩ := wireHeader_cases header
  have size : ((input.drop hdr).take len).length = len := by
    rw [List.length_take, List.length_drop]
    omega
  have sum : hdr + len < 2 ^ 64 := by omega
  refine ⟨hdr, len, header, complete, ?_⟩
  rw [parseFrame_eq long, if_neg (not_not.mpr clear), if_neg (by rw [unmasked]; decide), header]
  simp only [reportedFrame_eq input (wireHeader_pos header) sum, Nat.mod_eq_of_lt sum,
    if_neg (Nat.not_lt.mpr complete), wireFrame, Frame.view, Frame.span, size]

/-- A window that begins with the frame. -/
structure Presents (f : Frame) (io : Io) : Prop where
  valid : io.rx.Valid
  carries : Carries io.rx.rbuf f

theorem Presents.window {f : Frame} {io : Io} (presents : Presents f io) :
    io.rx.rbuf.length ≤ RX_CAP := by
  have bounded := presents.valid.bounded
  rw [Buffer.rbuf_length, Buffer.rsize_eq presents.valid]
  omega

theorem Presents.small {f : Frame} {io : Io} (presents : Presents f io) :
    f.payload.length ≤ RX_CAP := by
  have window := presents.window
  obtain ⟨-, -, hdr, len, -, complete, rfl⟩ := presents.carries
  simp only [List.length_take, List.length_drop]
  omega

/-- RX holding the bytes and nothing else, and an empty TX. -/
def window (bytes : List UInt8) : Io := ⟨Buffer.init.write bytes, .init⟩

theorem window_holds {bytes : List UInt8} (fits : bytes.length ≤ RX_CAP) :
    (window bytes).rx.Valid ∧ (window bytes).rx.rbuf = bytes :=
  ⟨Buffer.write_valid rx_small Buffer.init_valid fits,
    Buffer.rbuf_write rx_small Buffer.init_valid fits⟩

theorem presents_window {bytes : List UInt8} {f : Frame} (carries : Carries bytes f)
    (fits : bytes.length ≤ RX_CAP) : Presents f (window bytes) where
  valid := (window_holds fits).1
  carries := by
    rw [(window_holds fits).2]
    exact carries

variable {ω : Type} {C : Codec ω} (K : Crypto ω)

/-- Whether the codec has a handler for such messages. -/
def Codec.handles (C : Codec ω) : OpCode → Bool
  | .text => C.onText.isSome
  | .binary => C.onBinary.isSome
  | .cont | .close | .ping | .pong | .reserved _ => false

section Codecs

variable {σ : Type} (handler : Option (σ → Io → Span → ω → Option (Status × σ × Io × ω)))

/-- The handler, if it is there, leaves RX alone. -/
def LeavesRx : Prop :=
  ∀ g, handler = some g → ∀ {st io payload w status st' io' w'},
    g st io payload w = some (status, st', io', w') → io'.rx = io.rx

end Codecs

namespace WebSocketSession

/-- `on_data` on one window after the other, up to a status other than `ok`.  What a call leaves
of its window is not handed on here: `Threads` says that the next one begins with it. -/
def receive : List Io → WebSocketSession C → ω → Option (Status × WebSocketSession C × ω)
  | [], s, w => some (.ok, s, w)
  | io :: later, s, w =>
      match onData K s io w with
      | none => none
      | some (status, s', _, w') =>
          if status ≠ .ok then some (status, s', w') else receive later s' w'

/-- The session holds the message in progress. -/
structure Assembling (s : WebSocketSession C) (a : Assembly) : Prop where
  listening : s.state = .listening
  bytes : s.msg = pending a
  opcode : ∀ m, a = some m → s.opcode = m.op
  data : ∀ m, a = some m → m.op.data = true
  small : s.msg.length ≤ MSG_CAP

section Call

variable {K} {s s' : WebSocketSession C} {io io' : Io} {w w' : ω} {status : Status} {a : Assembly}
  {f : Frame}

/-- A session that listens takes the frame off RX and treats it by its kind. -/
theorem onData_frame (listening : s.state = .listening) (presents : Presents f io) :
    ∃ hdr len, wireHeader io.rx.rbuf = some (hdr, len) ∧ hdr + len ≤ io.rx.rbuf.length ∧
      onData K s io w =
        if f.fragment then addFragment K s ⟨io.rx.incRpos (hdr + len), io.tx⟩ f.view w
        else handleFrame K s ⟨io.rx.incRpos (hdr + len), io.tx⟩ f.op f.span w := by
  have window := presents.window
  have cap : RX_CAP < 2 ^ 64 := rx_small
  obtain ⟨hdr, len, header, complete, parsed⟩ := presents.carries.parsed (by omega)
  refine ⟨hdr, len, header, complete, ?_⟩
  unfold onData
  rw [listening]
  dsimp only
  unfold dispatchFrame
  rw [parsed]
  simp only [Frame.view, Frame.fragment, Bool.not_eq_true]

/-- The fragment path, on a payload that is there as a whole. -/
theorem addFragment_view (small : s.msg.length ≤ MSG_CAP) (window : f.payload.length ≤ RX_CAP) :
    addFragment K s io f.view w =
      if MSG_CAP < s.msg.length + f.payload.length then some (.error, s, io, w)
      else if f.fin then
        (handleFrame K { s with msg := s.msg ++ f.payload } io s.opcode
          ⟨s.msg ++ f.payload, (s.msg ++ f.payload).length⟩ w).map fun (status, s, io, w) =>
            (status, { s with msg := [] }, io, w)
      else
        some (.ok, { s with
          msg := s.msg ++ f.payload
          opcode := if f.op = .cont then s.opcode else f.op }, io, w) := by
  have caps : MSG_CAP + RX_CAP < 2 ^ 64 := by decide
  have sum : sizeAdd s.msg.length f.payload.length = s.msg.length + f.payload.length :=
    sizeAdd_of_lt (by omega)
  simp only [addFragment, Frame.view, Frame.span, sum, ne_eq, not_true_eq_false, if_false]
  by_cases cont : f.op = .cont
  · simp only [cont, not_true_eq_false, if_false, if_true]
  · simp only [cont, not_false_eq_true, if_true, if_false]

/-- The handler called for an opcode, if any, and nothing else about the session. -/
theorem handleFrame_calls {op : OpCode} {payload : Span}
    (answered : handleFrame K s io op payload w = some (status, s', io', w')) :
    s'.state = s.state ∧ s'.msg = s.msg ∧ s'.opcode = s.opcode ∧
      s'.callbacks = s.callbacks ++ if C.handles op then [(op, payload)] else [] := by
  have calls : ∀ {op : OpCode}
      {handler : Option (C.State → Io → Span → ω → Option (Status × C.State × Io × ω))},
      callCodec op handler s io payload w = some (status, s', io', w') →
      s'.state = s.state ∧ s'.msg = s.msg ∧ s'.opcode = s.opcode ∧
        s'.callbacks = s.callbacks ++ if handler.isSome then [(op, payload)] else [] := by
    intro op handler called
    cases handler with
    | none =>
        cases called
        simp
    | some g =>
        obtain ⟨⟨status₁, codec, io₁, w₁⟩, -, same⟩ := Option.map_eq_some_iff.mp called
        cases same
        simp
  cases op with
  | text => exact calls answered
  | binary => exact calls answered
  | cont | pong | reserved =>
      cases answered
      simp [Codec.handles]
  | close =>
      simp only [handleFrame] at answered
      split at answered
      all_goals
        cases answered
        simp [Codec.handles]
  | ping =>
      simp only [handleFrame] at answered
      repeat' split at answered
      all_goals
        cases answered
        simp [Codec.handles]

/-- **A frame that overflows the message buffer is an error**, whatever it is. -/
theorem onData_overflows (assembling : Assembling s a) (presents : Presents f io)
    (overflows : Overflows MSG_CAP a f) :
    ∃ io', onData K s io w = some (.error, s, io', w) := by
  obtain ⟨hdr, len, -, -, frame⟩ := onData_frame (K := K) (w := w) assembling.listening presents
  have large : MSG_CAP < s.msg.length + f.payload.length := by
    rw [assembling.bytes]
    exact overflows.2
  rw [if_pos overflows.1, addFragment_view assembling.small presents.small, if_pos large] at frame
  exact ⟨_, frame⟩

/-- **A frame the rules allow is taken as they say**, if it fits: the codec is given the
message it completes, if it completes one, and the session holds the message in progress. -/
theorem onData_takes {a' : Assembly} {out : Option Message} (assembling : Assembling s a)
    (presents : Presents f io) (takes : Takes a f a' out) (fits : ¬ Overflows MSG_CAP a f)
    (answered : onData K s io w = some (status, s', io', w')) :
    Assembling s' a' ∧
      s'.callbacks = s.callbacks ++ (out.toList.filter (C.handles ·.op)).map Message.call := by
  obtain ⟨hdr, len, -, -, frame⟩ := onData_frame (K := K) (w := w) assembling.listening presents
  rw [frame, addFragment_view assembling.small presents.small] at answered
  have room (fragment : f.fragment) : s.msg.length + f.payload.length ≤ MSG_CAP := by
    rw [assembling.bytes]
    exact Nat.le_of_not_lt fun large => fits ⟨fragment, large⟩
  cases takes with
  | @whole op payload data =>
      have direct : ¬ Frame.fragment ⟨op, true, payload⟩ := by
        rintro (open' | rfl)
        · cases open'
        · cases data
      rw [if_neg direct] at answered
      obtain ⟨state, msg, opcode, callbacks⟩ := handleFrame_calls answered
      refine ⟨⟨state.trans assembling.listening, msg.trans assembling.bytes, by simp, by simp,
        by rw [msg]; exact assembling.small⟩, ?_⟩
      rw [callbacks]
      cases handled : C.handles op <;> simp [handled, Message.call, Frame.span]
  | @start op payload data =>
      have fragment : Frame.fragment ⟨op, false, payload⟩ := .inl rfl
      have notCont : op ≠ .cont := by
        rintro rfl
        cases data
      have small := room fragment
      have empty : s.msg = [] := assembling.bytes
      rw [if_pos fragment, if_neg (Nat.not_lt.mpr small)] at answered
      cases answered
      refine ⟨⟨assembling.listening, by simp [empty, pending], ?_, ?_, by simpa using small⟩,
        by simp⟩
      · rintro m same
        cases same
        simp [notCont]
      · rintro m same
        cases same
        exact data
  | @more m payload =>
      have fragment : Frame.fragment ⟨.cont, false, payload⟩ := .inl rfl
      have small := room fragment
      rw [if_pos fragment, if_neg (Nat.not_lt.mpr small)] at answered
      cases answered
      refine ⟨⟨assembling.listening, by simp [assembling.bytes, pending, Message.extend], ?_, ?_,
        by simpa using small⟩, by simp⟩
      · rintro m' same
        cases same
        have opcode : s.opcode = m.op := assembling.opcode m rfl
        simpa [Message.extend] using opcode
      · rintro m' same
        cases same
        exact assembling.data m rfl
  | @last m payload =>
      have fragment : Frame.fragment ⟨.cont, true, payload⟩ := .inr rfl
      have small := room fragment
      rw [if_pos fragment, if_neg (Nat.not_lt.mpr small), if_pos rfl] at answered
      obtain ⟨⟨status₁, s₁, io₁, w₁⟩, handled, same⟩ := Option.map_eq_some_iff.mp answered
      cases same
      obtain ⟨state, -, opcode, callbacks⟩ := handleFrame_calls handled
      refine ⟨⟨state.trans assembling.listening, rfl, by simp, by simp, Nat.zero_le _⟩, ?_⟩
      have whole : s.msg ++ payload = (m.extend payload).payload := by
        rw [assembling.bytes]
        rfl
      dsimp only at callbacks ⊢
      rw [callbacks, assembling.opcode m rfl, whole]
      cases declared : C.handles m.op <;> simp [declared, Message.call, Message.extend]
  | @aside _ op payload notData notCont =>
      have direct : ¬ Frame.fragment ⟨op, true, payload⟩ := by
        rintro (open' | cont)
        · cases open'
        · exact notCont cont
      have silent : C.handles op = false := by
        cases op <;> first | rfl | cases notData
      rw [if_neg direct] at answered
      obtain ⟨state, msg, opcode, callbacks⟩ := handleFrame_calls answered
      refine ⟨⟨state.trans assembling.listening, msg.trans assembling.bytes, ?_, assembling.data,
        by rw [msg]; exact assembling.small⟩, by simp [callbacks, silent]⟩
      intro m same
      rw [opcode]
      exact assembling.opcode m same

theorem handleFrame_rx (text : LeavesRx C.onText) (binary : LeavesRx C.onBinary) {op : OpCode}
    {payload : Span} (answered : handleFrame K s io op payload w = some (status, s', io', w')) :
    io'.rx = io.rx := by
  have calls : ∀ {op : OpCode}
      {handler : Option (C.State → Io → Span → ω → Option (Status × C.State × Io × ω))},
      LeavesRx handler → callCodec op handler s io payload w = some (status, s', io', w') →
      io'.rx = io.rx := by
    intro op handler leaves called
    cases handler with
    | none =>
        cases called
        rfl
    | some g =>
        obtain ⟨⟨status₁, codec, io₁, w₁⟩, called, same⟩ := Option.map_eq_some_iff.mp called
        cases same
        exact leaves g rfl called
  cases op with
  | text => exact calls text answered
  | binary => exact calls binary answered
  | cont | pong | reserved =>
      cases answered
      rfl
  | close | ping =>
      simp only [handleFrame] at answered
      repeat' split at answered
      all_goals
        cases answered
        rfl

/-- A call takes exactly the frame off RX, if the codec leaves RX alone: the next window
begins right behind it. -/
theorem onData_consumes (text : LeavesRx C.onText) (binary : LeavesRx C.onBinary)
    (assembling : Assembling s a) (presents : Presents f io)
    (answered : onData K s io w = some (status, s', io', w')) :
    ∃ hdr len, wireHeader io.rx.rbuf = some (hdr, len) ∧
      io'.rx.rbuf = io.rx.rbuf.drop (hdr + len) := by
  obtain ⟨hdr, len, header, complete, frame⟩ :=
    onData_frame (K := K) (w := w) assembling.listening presents
  rw [Buffer.rbuf_length] at complete
  refine ⟨hdr, len, header, ?_⟩
  rw [← Buffer.rbuf_incRpos rx_small presents.valid complete]
  refine congrArg Buffer.rbuf ?_
  rw [frame] at answered
  split at answered
  · rw [addFragment_view assembling.small presents.small] at answered
    split at answered
    · cases answered
      rfl
    split at answered
    · obtain ⟨⟨status₁, s₁, io₁, w₁⟩, handled, same⟩ := Option.map_eq_some_iff.mp answered
      cases same
      exact handleFrame_rx text binary handled
    · cases answered
      rfl
  · exact handleFrame_rx text binary answered

end Call

/-! ## Genuine messages -/

/-- Every frame keeps the rules, or overflows the message buffer. -/
def Admissible : Assembly → List Frame → Prop
  | _, [] => True
  | a, f :: later =>
      Overflows MSG_CAP a f ∨ ∃ a' out, Takes a f a' out ∧ Admissible a' later

/-- The windows of a run, as far as it goes: each begins with the next frame. -/
def Serves : List Frame → List Io → WebSocketSession C → ω → Prop
  | [], [], _, _ => True
  | f :: frames, io :: ios, s, w => Presents f io ∧
      ∀ s' io' w', onData K s io w = some (.ok, s', io', w') → Serves frames ios s' w'
  | _, _, _, _ => False

/-- How many bytes the frame at the front takes. -/
def wireSize (input : List UInt8) : Nat :=
  match wireHeader input with
  | none => 0
  | some (hdr, len) => hdr + len

/-- The pieces of a stream bring the frames: with each the next one is there as a whole, behind
what the ones before it have left. -/
def Brings : List UInt8 → List (List UInt8) → List Frame → Prop
  | _, [], [] => True
  | left, piece :: pieces, f :: frames => Carries (left ++ piece) f ∧
      Brings ((left ++ piece).drop (wireSize (left ++ piece))) pieces frames
  | _, _, _ => False

/-- The windows of a run, as far as it goes: each has what the call before has left, and the next
piece of the stream. -/
def Threads : List UInt8 → List (List UInt8) → List Io → WebSocketSession C → ω → Prop
  | _, [], [], _, _ => True
  | left, piece :: pieces, io :: ios, s, w => (io.rx.Valid ∧ io.rx.rbuf = left ++ piece) ∧
      ∀ s' io' w', onData K s io w = some (.ok, s', io', w') → Threads io'.rx.rbuf pieces ios s' w'
  | _, _, _, _, _ => False

/-- How the windows come by the frames: as given; or the codec leaves RX alone, and a stream brings
them. -/
inductive Served (frames : List Frame) (ios : List Io) (s : WebSocketSession C) (w : ω) : Prop where
  | windows (presented : List.Forall₂ Presents frames ios)
  | stream (left : List UInt8) (pieces : List (List UInt8)) (text : LeavesRx C.onText)
      (binary : LeavesRx C.onBinary) (brings : Brings left pieces frames)
      (threads : Threads K left pieces ios s w)

section Run

variable {K} {s s' : WebSocketSession C} {w w' : ω} {status : Status} {a : Assembly}
  {frames : List Frame} {ios : List Io}

theorem serves_of_presents (presented : List.Forall₂ Presents frames ios) :
    Serves K frames ios s w := by
  induction presented generalizing s w with
  | nil => trivial
  | cons presents _ ih => exact ⟨presents, fun _ _ _ _ => ih⟩

/-- A stream that brings the frames has each window begin with the next: what a call leaves is
what is behind its frame. -/
theorem serves_of_stream (text : LeavesRx C.onText) (binary : LeavesRx C.onBinary)
    (assembling : Assembling s a) (admissible : Admissible a frames) {left : List UInt8}
    {pieces : List (List UInt8)} (brings : Brings left pieces frames)
    (threads : Threads K left pieces ios s w) : Serves K frames ios s w := by
  induction frames generalizing left pieces ios s w a with
  | nil =>
      rcases pieces with _ | ⟨piece, pieces⟩
      · rcases ios with _ | ⟨io, ios⟩
        · trivial
        · exact threads.elim
      · exact brings.elim
  | cons f frames ih =>
      rcases pieces with _ | ⟨piece, pieces⟩
      · exact brings.elim
      rcases ios with _ | ⟨io, ios⟩
      · exact threads.elim
      obtain ⟨carries, later⟩ := brings
      obtain ⟨⟨valid, unread⟩, next⟩ := threads
      have presents : Presents f io := ⟨valid, unread ▸ carries⟩
      refine ⟨presents, fun s' io' w' answered => ?_⟩
      by_cases large : Overflows MSG_CAP a f
      · obtain ⟨_, refused⟩ := onData_overflows (K := K) (w := w) assembling presents large
        rw [refused] at answered
        cases answered
      obtain ⟨a', out, takes, admissible'⟩ := admissible.resolve_left large
      obtain ⟨assembling', -⟩ := onData_takes assembling presents takes large answered
      obtain ⟨hdr, len, header, rest⟩ := onData_consumes text binary assembling presents answered
      refine ih assembling' admissible' ?_ (next s' io' w' answered)
      rw [rest, unread]
      rw [unread] at header
      simpa only [wireSize, header] using later

theorem Served.serves (served : Served K frames ios s w) (assembling : Assembling s a)
    (admissible : Admissible a frames) : Serves K frames ios s w := by
  cases served with
  | windows presented => exact serves_of_presents presented
  | stream left pieces text binary brings threads =>
      exact serves_of_stream text binary assembling admissible brings threads

/-- What a run has given to the codec, and what it holds if it is still going. -/
theorem receive_reassembles (assembling : Assembling s a) (serves : Serves K frames ios s w)
    (admissible : Admissible a frames)
    (answered : receive K ios s w = some (status, s', w')) :
    ∃ delivered, delivered <+: (reassemble a frames).1.filter (C.handles ·.op) ∧
      s'.callbacks = s.callbacks ++ delivered.map Message.call ∧
      (status = .ok → delivered = (reassemble a frames).1.filter (C.handles ·.op) ∧
        ∃ a', (reassemble a frames).2 = some a' ∧ Assembling s' a') := by
  induction frames generalizing ios s w a with
  | nil =>
      rcases ios with _ | ⟨io, ios⟩
      · cases answered
        exact ⟨[], List.nil_prefix, by simp, fun _ => ⟨rfl, a, rfl, assembling⟩⟩
      · exact serves.elim
  | cons f frames ih =>
      rcases ios with _ | ⟨io, ios⟩
      · exact serves.elim
      obtain ⟨presents, next⟩ := serves
      rw [receive] at answered
      by_cases large : Overflows MSG_CAP a f
      · -- the run ends here, with nothing said
        obtain ⟨io', refused⟩ := onData_overflows (K := K) (w := w) assembling presents large
        rw [refused] at answered
        cases answered
        exact ⟨[], List.nil_prefix, by simp, by simp⟩
      · obtain ⟨a₁, out, takes, later⟩ := admissible.resolve_left large
        rw [reassemble_cons takes]
        simp only [List.filter_append]
        cases called : onData K s io w with
        | none =>
            rw [called] at answered
            cases answered
        | some result =>
            obtain ⟨status₁, s₁, io₁, w₁⟩ := result
            obtain ⟨assembling₁, callbacks₁⟩ := onData_takes assembling presents takes large called
            rw [called] at answered
            dsimp only at answered
            split at answered
            · rename_i stopped
              cases answered
              exact ⟨_, List.prefix_append _ _, callbacks₁, fun ok => absurd ok stopped⟩
            · rename_i goesOn
              obtain rfl := not_not.mp goesOn
              obtain ⟨delivered, part, callbacks, all⟩ :=
                ih assembling₁ (next s₁ io₁ w₁ called) later answered
              refine ⟨_, (List.prefix_append_right_inj _).mpr part, ?_, ?_⟩
              · rw [callbacks, callbacks₁, List.map_append, List.append_assoc]
              · intro ok
                obtain ⟨rfl, held⟩ := all ok
                exact ⟨rfl, held⟩

/-- A session that has nothing in its message buffer. -/
theorem assembling_none (listening : s.state = .listening) (empty : s.msg = []) :
    Assembling s none :=
  ⟨listening, empty, by simp, by simp, by rw [empty]; exact Nat.zero_le _⟩

/-- **No message is made up or mixed**, while the frames keep the rules: what the codec is
given are messages of the sequence, in their order; and if a frame overflows the message
buffer, the run ends there without `ok`. -/
theorem reassembly_genuine (listening : s.state = .listening) (empty : s.msg = [])
    (served : Served K frames ios s w) (admissible : Admissible none frames)
    (answered : receive K ios s w = some (status, s', w')) :
    ∃ delivered, s'.callbacks = s.callbacks ++ delivered.map Message.call ∧
      delivered <+: (reassemble none frames).1.filter (C.handles ·.op) ∧
      (∀ m ∈ delivered, Sent frames m) ∧
      (status = .ok → (reassemble none frames).2 ≠ none ∧
        delivered = (reassemble none frames).1.filter (C.handles ·.op)) := by
  have start := assembling_none listening empty
  obtain ⟨delivered, part, callbacks, all⟩ :=
    receive_reassembles start (served.serves start admissible) admissible answered
  refine ⟨delivered, callbacks, part, ?_, ?_⟩
  · intro m mem
    have read := List.mem_of_mem_filter (part.subset mem)
    have sent : Sent ([] ++ frames) m := reassemble_sent .nothing m read
    exact sent
  · intro ok
    obtain ⟨same, a', reached, -⟩ := all ok
    exact ⟨by rw [reached]; simp, same⟩

end Run

end WebSocketSession

/-- A codec that only listens. -/
def listener : Codec ω where
  Config := Unit
  State := Unit
  make := id
  onText := some fun st io _ w => some (.ok, st, io, w)
  onBinary := some fun st io _ w => some (.ok, st, io, w)
  onShutdown := none

theorem listener_leaves {ω : Type} : LeavesRx (listener : Codec ω).onText ∧
    LeavesRx (listener : Codec ω).onBinary := by
  have leaves : LeavesRx (some fun (st : Unit) (io : Io) (_ : Span) (w : ω) =>
      some (Status.ok, st, io, w)) := by
    intro g there st io payload w status st' io' w' answered
    cases there
    cases answered
    rfl
  exact ⟨leaves, leaves⟩

/-- A session past its handshake. -/
def upgraded : WebSocketSession (listener : Codec Unit) :=
  { WebSocketSession.make .cont "host" ⟨"/", [], ()⟩ with state := .listening }

/-- The text message `ab` in two frames. -/
def twoFrames : List Frame := [⟨.text, false, [0x61]⟩, ⟨.cont, true, [0x62]⟩]

theorem carries_end : Carries [0x80, 1, 0x62] ⟨.cont, true, [0x62]⟩ :=
  ⟨by decide, by decide, 2, 1, by decide, by decide, by decide⟩

namespace WebSocketSession

theorem reassembly_genuine_two :
    ∃ status s' w', receive zeroCrypto
        [window [0x01, 1, 0x61, 0x80, 1, 0x62], window [0x80, 1, 0x62]] upgraded () =
        some (status, s', w') ∧
      ∃ delivered, s'.callbacks = upgraded.callbacks ++ delivered.map Message.call ∧
        delivered <+: (reassemble none twoFrames).1.filter ((listener : Codec Unit).handles ·.op) ∧
        (∀ m ∈ delivered, Sent twoFrames m) ∧
        (status = .ok → (reassemble none twoFrames).2 ≠ none ∧
          delivered = (reassemble none twoFrames).1.filter
            ((listener : Codec Unit).handles ·.op)) := by
  obtain ⟨⟨status, s', w'⟩, received⟩ := Option.isSome_iff_exists.mp (show (receive zeroCrypto
    [window [0x01, 1, 0x61, 0x80, 1, 0x62], window [0x80, 1, 0x62]] upgraded ()).isSome = true by
      decide +kernel)
  have admissible : Admissible none twoFrames :=
    .inr ⟨_, _, .start rfl, .inr ⟨_, _, .last, trivial⟩⟩
  -- both frames come in at once, and the first call leaves the second
  have brings : Brings [] [[0x01, 1, 0x61, 0x80, 1, 0x62], []] twoFrames :=
    ⟨⟨by decide, by decide, 2, 1, by decide, by decide, by decide⟩, carries_end, trivial⟩
  have left : (onData zeroCrypto upgraded (window [0x01, 1, 0x61, 0x80, 1, 0x62]) ()).map
      (fun result => result.2.2.1.rx.rbuf) = some [0x80, 1, 0x62] := by decide +kernel
  have threads : Threads zeroCrypto [] [[0x01, 1, 0x61, 0x80, 1, 0x62], []]
      [window [0x01, 1, 0x61, 0x80, 1, 0x62], window [0x80, 1, 0x62]] upgraded () := by
    refine ⟨window_holds (by decide), fun s₁ io₁ w₁ called => ?_⟩
    rw [called] at left
    have unread : io₁.rx.rbuf = [0x80, 1, 0x62] := Option.some.inj left
    rw [unread]
    exact ⟨window_holds (by decide), fun _ _ _ _ => trivial⟩
  exact ⟨status, s', w', received, reassembly_genuine rfl rfl
    (.stream [] _ listener_leaves.1 listener_leaves.2 brings threads) admissible received⟩

/-- A continuation frame with no message in progress is handed to the codec as one more
text message, which nobody sent. -/
theorem continuation_fabricated :
    (receive zeroCrypto
        [window [0x01, 1, 0x61], window [0x80, 1, 0x62], window [0x80, 1, 0x63]] upgraded ()).map
      (fun result => (result.1, result.2.1.callbacks)) =
      some (.ok, [(.text, ⟨[0x61, 0x62], 2⟩), (.text, ⟨[0x63], 1⟩)]) ∧
    reassemble none (twoFrames ++ [⟨.cont, true, [0x63]⟩]) = ([⟨.text, [0x61, 0x62]⟩], none) ∧
    ¬ Sent (twoFrames ++ [⟨.cont, true, [0x63]⟩]) ⟨.text, [0x63]⟩ := by
  refine ⟨by decide +kernel, by decide, ?_⟩
  intro sent
  generalize message : (⟨.text, [0x63]⟩ : Message) = m at sent
  cases sent with
  | whole data here =>
      cases message
      revert here
      decide
  | @fragmented op before middle after first last data here between =>
      -- the only frame that is not final starts with another byte
      have start : ⟨op, false, first⟩ ∈ twoFrames ++ [⟨.cont, true, [0x63]⟩] := by
        rw [here]
        simp
      simp only [twoFrames, List.cons_append, List.nil_append, List.mem_cons, List.not_mem_nil,
        Frame.mk.injEq, Bool.false_eq_true, false_and, and_false, or_false, true_and] at start
      rw [start.2] at message
      simp at message

end WebSocketSession

/-! ## Complete delivery -/

section Codecs

variable {σ : Type} (handler : Option (σ → Io → Span → ω → Option (Status × σ × Io × ω)))

/-- The handler is there, and always answers `ok`. -/
def Obliges : Prop :=
  ∃ g, handler = some g ∧ ∀ st io payload w, ∃ st' io' w', g st io payload w = some (.ok, st', io', w')

end Codecs

/-- TX has room for the reply, if the frame is a ping. -/
def Room (f : Frame) (io : Io) : Prop := f.op = .ping → 6 + f.payload.length ≤ io.tx.wsize

/-- A frame whose reply, if it has one, is not a farewell. -/
def Frame.Mild (f : Frame) : Prop := f.op ≠ .close ∧ (f.op = .ping → f.payload.length ≤ 125)

theorem Control.mild (c : Control) : c.frame.Mild := by
  unfold Control.frame Frame.Mild
  cases ping : c.ping with
  | false => simp
  | true =>
      have short := c.short ping
      simpa using short

theorem Fragment.mild {fin : Bool} {g : Fragment} {f : Frame} (mem : f ∈ g.frames fin) : f.Mild := by
  rcases List.mem_append.mp mem with control | own
  · obtain ⟨c, -, rfl⟩ := List.mem_map.mp control
    exact c.mild
  · rw [List.mem_singleton.mp own]
    exact ⟨by simp, by simp⟩

theorem Item.mild {item : Item} {f : Frame} (mem : f ∈ item.frames) : f.Mild := by
  have data : ∀ {op : OpCode} {fin : Bool} {payload : List UInt8}, op.data = true →
      Frame.Mild ⟨op, fin, payload⟩ := by
    intro op fin payload data
    cases op with
    | text | binary => exact ⟨by simp, by simp⟩
    | cont | close | ping | pong | reserved => cases data
  cases item with
  | control c =>
      rw [List.mem_singleton.mp mem]
      exact c.mild
  | whole op isData payload =>
      rw [List.mem_singleton.mp mem]
      exact data isData
  | fragmented op isData first middle last =>
      rcases List.mem_cons.mp mem with rfl | rest
      · exact data isData
      rcases List.mem_append.mp rest with inner | final
      · obtain ⟨g, -, inside⟩ := List.mem_flatMap.mp inner
        exact g.mild inside
      · exact last.mild final

namespace WebSocketSession

section Call

variable {K} {s s' : WebSocketSession C} {io io' : Io} {w w' : ω} {status : Status} {a a' : Assembly}
  {f : Frame} {out : Option Message}

theorem callCodec_ok {op : OpCode} {payload : Span}
    {handler : Option (C.State → Io → Span → ω → Option (Status × C.State × Io × ω))}
    (obliges : Obliges handler) :
    ∃ s' io' w', callCodec op handler s io payload w = some (.ok, s', io', w') := by
  obtain ⟨g, rfl, ok⟩ := obliges
  obtain ⟨st', io', w', answer⟩ := ok s.codec io payload w
  exact ⟨_, io', w', Option.map_eq_some_iff.mpr ⟨_, answer, rfl⟩⟩

theorem handleFrame_ok (text : Obliges C.onText) (binary : Obliges C.onBinary) {op : OpCode} {payload : Span}
    (notClose : op ≠ .close)
    (room : op = .ping → payload.size ≤ 125 ∧ 6 + payload.size ≤ io.tx.wsize) :
    ∃ s' io' w', handleFrame K s io op payload w = some (.ok, s', io', w') := by
  cases op with
  | close => exact absurd rfl notClose
  | cont | pong | reserved => exact ⟨_, _, _, rfl⟩
  | text => exact callCodec_ok text
  | binary => exact callCodec_ok binary
  | ping =>
      obtain ⟨short, fits⟩ := room rfl
      have sum : sizeAdd 6 payload.size = 6 + payload.size := sizeAdd_of_lt (by omega)
      simp only [handleFrame, sum, if_neg (show ¬ 126 ≤ payload.size by omega),
        if_neg (show ¬ io.tx.wsize < 6 + payload.size by omega)]
      exact ⟨_, _, _, rfl⟩

theorem onData_ok (text : Obliges C.onText) (binary : Obliges C.onBinary)
    (assembling : Assembling s a) (presents : Presents f io) (room : Room f io)
    (mild : f.Mild) (takes : Takes a f a' out) (fits : ¬ Overflows MSG_CAP a f) :
    ∃ s' io' w', onData K s io w = some (.ok, s', io', w') := by
  obtain ⟨hdr, len, -, -, frame⟩ :=
    onData_frame (K := K) (w := w) assembling.listening presents
  rw [frame]
  by_cases fragment : f.fragment
  · have holds : ¬ MSG_CAP < s.msg.length + f.payload.length := by
      rw [assembling.bytes]
      exact fun large => fits ⟨fragment, large⟩
    rw [if_pos fragment, addFragment_view assembling.small presents.small, if_neg holds]
    cases fin : f.fin with
    | false => exact ⟨_, _, _, if_neg (by simp)⟩
    | true =>
        -- only a final continuation gets here, so the opcode is that of a message
        have message : ∃ m, a = some m := by
          cases takes with
          | last => exact ⟨_, rfl⟩
          | more => exact ⟨_, rfl⟩
          | start => cases fin
          | whole data =>
              rcases fragment with open' | rfl
              · cases open'
              · cases data
          | aside _ notCont =>
              rcases fragment with open' | cont
              · cases open'
              · exact absurd cont notCont
        obtain ⟨m, rfl⟩ := message
        have data : s.opcode.data = true := by
          rw [assembling.opcode m rfl]
          exact assembling.data m rfl
        have notClose : s.opcode ≠ .close := by
          intro close
          rw [close] at data
          cases data
        have notPing : s.opcode ≠ .ping := by
          intro ping
          rw [ping] at data
          cases data
        obtain ⟨s₁, io₁, w₁, handled⟩ := handleFrame_ok (K := K) (w := w)
          (s := { s with msg := s.msg ++ f.payload }) text binary notClose
          (fun ping => absurd ping notPing)
        rw [if_pos rfl, handled]
        exact ⟨_, _, _, rfl⟩
  · rw [if_neg fragment]
    exact handleFrame_ok text binary mild.1 fun ping => ⟨mild.2 ping, room ping⟩

end Call

section Run

variable {K} {s s' : WebSocketSession C} {w w' : ω} {status : Status} {a : Assembly}
  {frames : List Frame} {ios : List Io}

/-- A run that goes to its end answers `ok` at each window. -/
theorem receive_cons {io : Io} (received : receive K (io :: ios) s w = some (.ok, s', w')) :
    ∃ s₁ io₁ w₁, onData K s io w = some (.ok, s₁, io₁, w₁) ∧
      receive K ios s₁ w₁ = some (.ok, s', w') := by
  rw [receive] at received
  cases called : onData K s io w with
  | none =>
      rw [called] at received
      cases received
  | some result =>
      obtain ⟨status₁, s₁, io₁, w₁⟩ := result
      rw [called] at received
      dsimp only at received
      split at received
      · rename_i stopped
        cases received
        exact absurd rfl stopped
      · rename_i goesOn
        obtain rfl := not_not.mp goesOn
        exact ⟨s₁, io₁, w₁, rfl, received⟩

theorem receive_append {later : List Io} (first : receive K ios s w = some (.ok, s', w')) :
    receive K (ios ++ later) s w = receive K later s' w' := by
  induction ios generalizing s w with
  | nil =>
      cases first
      rfl
  | cons io ios ih =>
      obtain ⟨s₁, io₁, w₁, called, further⟩ := receive_cons first
      rw [List.cons_append, receive, called]
      exact ih further

/-- The windows of a run serve what comes first. -/
theorem Serves.take {later : List Frame} (serves : Serves K (frames ++ later) ios s w) :
    Serves K frames (ios.take frames.length) s w := by
  induction frames generalizing ios s w with
  | nil => trivial
  | cons f frames ih =>
      rcases ios with _ | ⟨io, ios⟩
      · exact serves.elim
      · exact ⟨serves.1, fun s₁ io₁ w₁ called => ih (serves.2 s₁ io₁ w₁ called)⟩

/-- And, once that is received, what follows. -/
theorem Serves.drop {later : List Frame} (serves : Serves K (frames ++ later) ios s w)
    (received : receive K (ios.take frames.length) s w = some (.ok, s', w')) :
    Serves K later (ios.drop frames.length) s' w' := by
  induction frames generalizing ios s w with
  | nil =>
      cases received
      exact serves
  | cons f frames ih =>
      rcases ios with _ | ⟨io, ios⟩
      · exact serves.elim
      obtain ⟨s₁, io₁, w₁, called, received₁⟩ := receive_cons received
      exact ih (serves.2 s₁ io₁ w₁ called) received₁

theorem receive_ok (text : Obliges C.onText) (binary : Obliges C.onBinary)
    (assembling : Assembling s a) (serves : Serves K frames ios s w)
    (room : List.Forall₂ Room frames ios) (mild : ∀ f ∈ frames, f.Mild)
    {messages : List Message} {a' : Assembly} (legal : reassemble a frames = (messages, some a'))
    (fits : Fits MSG_CAP a frames) :
    ∃ s' w', receive K ios s w = some (.ok, s', w') := by
  induction room generalizing s w a messages with
  | nil => exact ⟨s, w, rfl⟩
  | @cons f io frames ios fitting _ ih =>
      obtain ⟨presents, served⟩ := serves
      obtain ⟨a₁, out, rest, takes, next, -⟩ := reassemble_legal legal
      rw [fits_cons takes] at fits
      obtain ⟨s₁, io₁, w₁, called⟩ := onData_ok (K := K) (w := w) text binary assembling presents
        fitting (mild f (by simp)) takes fits.1
      obtain ⟨assembling₁, -⟩ := onData_takes assembling presents takes fits.1 called
      obtain ⟨s', w', further⟩ := ih assembling₁ (served s₁ io₁ w₁ called)
        (fun g mem => mild g (by simp [mem])) next fits.2
      refine ⟨s', w', ?_⟩
      rw [receive, called]
      exact further

theorem admissible_of_legal {messages : List Message} {a' : Assembly}
    (legal : reassemble a frames = (messages, some a')) : Admissible a frames := by
  induction frames generalizing a messages with
  | nil => trivial
  | cons f later ih =>
      obtain ⟨a₁, out, rest, takes, next, -⟩ := reassemble_legal legal
      exact .inr ⟨a₁, out, takes, ih next⟩

/-- A legal sequence that fits is received to its end. -/
theorem receive_complete (text : Obliges C.onText) (binary : Obliges C.onBinary)
    (assembling : Assembling s a) (serves : Serves K frames ios s w)
    (room : List.Forall₂ Room frames ios) (mild : ∀ f ∈ frames, f.Mild)
    {messages : List Message} {a' : Assembly} (legal : reassemble a frames = (messages, some a'))
    (fits : Fits MSG_CAP a frames) :
    ∃ s' w', receive K ios s w = some (.ok, s', w') ∧ Assembling s' a' ∧
      s'.callbacks = s.callbacks ++ (messages.filter (C.handles ·.op)).map Message.call := by
  obtain ⟨s', w', received⟩ := receive_ok text binary assembling serves room mild legal fits
  obtain ⟨delivered, -, callbacks, all⟩ :=
    receive_reassembles assembling serves (admissible_of_legal legal) received
  obtain ⟨rfl, a₁, reached, held⟩ := all rfl
  rw [legal] at reached callbacks
  cases reached
  exact ⟨s', w', received, held, callbacks⟩

theorem Obliges.handles (text : Obliges C.onText) (binary : Obliges C.onBinary) (items : List Item) :
    (items.filterMap Item.message).filter (C.handles ·.op) = items.filterMap Item.message := by
  have handles : ∀ op : OpCode, op.data = true → C.handles op = true := by
    intro op data
    cases op with
    | text =>
        obtain ⟨g, declared, -⟩ := text
        simp [Codec.handles, declared]
    | binary =>
        obtain ⟨g, declared, -⟩ := binary
        simp [Codec.handles, declared]
    | cont | close | ping | pong | reserved => cases data
  rw [List.filter_eq_self]
  intro m mem
  obtain ⟨item, -, message⟩ := List.mem_filterMap.mp mem
  cases item with
  | control => cases message
  | whole op data =>
      cases message
      exact handles op data
  | fragmented op data =>
      cases message
      exact handles op data

theorem mild_items (items : List Item) : ∀ f ∈ items.flatMap Item.frames, f.Mild := by
  intro f mem
  obtain ⟨item, -, inside⟩ := List.mem_flatMap.mp mem
  exact Item.mild inside

/-- Messages that fit are received to the last one. -/
theorem receive_items (text : Obliges C.onText) (binary : Obliges C.onBinary)
    (start : Assembling s none) {items : List Item} (fits : ∀ item ∈ items, item.Fits MSG_CAP)
    (served : Served K (items.flatMap Item.frames) ios s w)
    (room : List.Forall₂ Room (items.flatMap Item.frames) ios) :
    ∃ s' w', receive K ios s w = some (.ok, s', w') ∧ s'.msg = [] ∧
      s'.callbacks = s.callbacks ++ (items.filterMap Item.message).map Message.call := by
  have legal := reassemble_items items
  have serves := served.serves start (admissible_of_legal legal)
  obtain ⟨s', w', received, held, callbacks⟩ := receive_complete text binary start serves room
    (mild_items items) legal (fits_items fits)
  rw [Obliges.handles text binary items] at callbacks
  exact ⟨s', w', received, held.bytes, callbacks⟩

/-- A message that does not fit is received up to the fragment that crosses the end of the
message buffer, and refused there. -/
theorem receive_crossing (text : Obliges C.onText) (binary : Obliges C.onBinary)
    (start : Assembling s none) {items : List Item} (fits : ∀ item ∈ items, item.Fits MSG_CAP)
    {item : Item} (large : ¬ item.Fits MSG_CAP)
    (served : Served K (items.flatMap Item.frames ++ item.frames) ios s w)
    (room : List.Forall₂ Room (items.flatMap Item.frames ++ item.frames) ios) :
    ∃ before crossing after s' w', item.frames = before ++ crossing :: after ∧
      crossing.fragment ∧ (assembled before).length ≤ MSG_CAP ∧
      MSG_CAP < (assembled before).length + crossing.payload.length ∧
      receive K (ios.take (items.flatMap Item.frames ++ before).length) s w = some (.ok, s', w') ∧
      receive K (ios.take ((items.flatMap Item.frames ++ before).length + 1)) s w =
        some (.error, s', w') ∧
      receive K ios s w = some (.error, s', w') ∧
      s'.callbacks = s.callbacks ++ (items.filterMap Item.message).map Message.call := by
  obtain ⟨before, crossing, after, reached, read, split, fits', reads, overflows⟩ :=
    exists_overflow (reassemble_item item) (mt (fits_item item).mp large)
  have silent : read = [] := by
    cases item with
    | control | whole => exact absurd trivial large
    | fragmented => exact reassemble_unfinished split reads
  subst silent
  -- the frames before the crossing one are a legal sequence that fits
  have legal : reassemble none (items.flatMap Item.frames ++ before) =
      (items.filterMap Item.message, some reached) := by
    rw [reassemble_append (reassemble_items items), reads, List.append_nil]
  have small : Fits MSG_CAP none (items.flatMap Item.frames ++ before) :=
    (fits_append (reassemble_items items) before).mpr ⟨fits_items fits, fits'⟩
  have mild : ∀ f ∈ items.flatMap Item.frames ++ before, f.Mild := by
    intro f mem
    rcases List.mem_append.mp mem with earlier | here
    · exact mild_items items f earlier
    · have inside : f ∈ item.frames := by
        rw [split]
        exact List.mem_append_left _ here
      exact Item.mild inside
  have whole : reassemble none (items.flatMap Item.frames ++ item.frames) =
      (items.filterMap Item.message ++ item.message.toList, some none) := by
    rw [reassemble_append (reassemble_items items), reassemble_item]
  have serves := served.serves start (admissible_of_legal whole)
  rw [split, ← List.append_assoc] at serves room
  have room₁ := List.forall₂_take (items.flatMap Item.frames ++ before).length room
  rw [List.take_left] at room₁
  obtain ⟨s', w', received, held, callbacks⟩ :=
    receive_complete text binary start serves.take room₁ mild legal small
  have serves₂ := serves.drop received
  generalize length : (items.flatMap Item.frames ++ before).length = n at received serves₂
  rw [Obliges.handles text binary items] at callbacks
  have total : pending reached = assembled before := pending_reassemble reads
  have below := held.small
  have above := overflows.2
  rw [held.bytes, total] at below
  rw [total] at above
  -- and the crossing one is refused, whatever follows it
  rcases windows : ios.drop n with _ | ⟨io, rest⟩
  · rw [windows] at serves₂
    exact serves₂.elim
  rw [windows] at serves₂
  have refused : ∀ later, receive K (ios.take n ++ io :: later) s w = some (.error, s', w') := by
    intro later
    obtain ⟨io', error⟩ := onData_overflows (K := K) (w := w') held serves₂.1 overflows
    rw [receive_append received, receive, error]
    rfl
  refine ⟨before, crossing, after, s', w', split, overflows.1, below, above, ?_, ?_, ?_, callbacks⟩
  · rw [length]
    exact received
  · rw [length, List.take_add, windows]
    exact refused []
  · rw [← List.take_append_drop n ios, windows]
    exact refused rest

/-- **Every message is delivered, once, whole and in order**, and one that does not fit
the message buffer is an error at the first fragment that crosses its end. -/
theorem messages_delivered (text : Obliges C.onText) (binary : Obliges C.onBinary)
    (listening : s.state = .listening) (empty : s.msg = []) {items : List Item}
    (fits : ∀ item ∈ items, item.Fits MSG_CAP) :
    (∀ ios, Served K (items.flatMap Item.frames) ios s w →
      List.Forall₂ Room (items.flatMap Item.frames) ios →
      ∃ s' w', receive K ios s w = some (.ok, s', w') ∧ s'.msg = [] ∧
        s'.callbacks = s.callbacks ++ (items.filterMap Item.message).map Message.call) ∧
    ∀ item : Item, ¬ item.Fits MSG_CAP →
      ∀ ios, Served K (items.flatMap Item.frames ++ item.frames) ios s w →
      List.Forall₂ Room (items.flatMap Item.frames ++ item.frames) ios →
      ∃ before crossing after s' w', item.frames = before ++ crossing :: after ∧
        crossing.fragment ∧ (assembled before).length ≤ MSG_CAP ∧
        MSG_CAP < (assembled before).length + crossing.payload.length ∧
        receive K (ios.take (items.flatMap Item.frames ++ before).length) s w =
          some (.ok, s', w') ∧
        receive K (ios.take ((items.flatMap Item.frames ++ before).length + 1)) s w =
          some (.error, s', w') ∧
        receive K ios s w = some (.error, s', w') ∧
        s'.callbacks = s.callbacks ++ (items.filterMap Item.message).map Message.call := by
  have start := assembling_none listening empty
  constructor
  · intro ios served room
    exact receive_items text binary start fits served room
  · intro item large ios served room
    exact receive_crossing text binary start fits large served room

end Run

/-- The message in two frames, with a ping in between. -/
def interrupted : List Item :=
  [.fragmented .text rfl [0x61] [] ⟨[⟨true, [], fun _ => Nat.zero_le 125⟩], [0x62]⟩]

/-- Its three frames, of which the first two are read off the front. -/
def interruptedBytes : List UInt8 := [0x01, 1, 0x61, 0x89, 0, 0x80, 1, 0x62]

theorem messages_delivered_interrupted :
    ∃ s' w', receive zeroCrypto [window interruptedBytes, window (interruptedBytes.drop 3),
        window (interruptedBytes.drop 5)] upgraded () = some (.ok, s', w') ∧ s'.msg = [] ∧
      s'.callbacks = [(.text, ⟨[0x61, 0x62], 2⟩)] := by
  have text : Obliges (listener : Codec Unit).onText := ⟨_, rfl, fun _ _ _ _ => ⟨_, _, _, rfl⟩⟩
  have binary : Obliges (listener : Codec Unit).onBinary := ⟨_, rfl, fun _ _ _ _ => ⟨_, _, _, rfl⟩⟩
  have fits : ∀ item ∈ interrupted, item.Fits MSG_CAP := by
    intro item mem
    rw [List.mem_singleton.mp mem]
    exact (by decide : 2 ≤ MSG_CAP)
  have brings : Brings [] [interruptedBytes, [], []] (interrupted.flatMap Item.frames) :=
    ⟨⟨by decide, by decide, 2, 1, by decide, by decide, by decide⟩,
      ⟨by decide, by decide, 2, 0, by decide, by decide, by decide⟩, carries_end, trivial⟩
  have first : (onData zeroCrypto upgraded (window interruptedBytes) ()).map
      (fun result => result.2.2.1.rx.rbuf) = some (interruptedBytes.drop 3) := by decide +kernel
  have second : ((onData zeroCrypto upgraded (window interruptedBytes) ()).bind fun result =>
      onData zeroCrypto result.2.1 (window (interruptedBytes.drop 3)) result.2.2.2).map
        (fun result => result.2.2.1.rx.rbuf) = some (interruptedBytes.drop 5) := by decide +kernel
  have threads : Threads zeroCrypto [] [interruptedBytes, [], []] [window interruptedBytes,
      window (interruptedBytes.drop 3), window (interruptedBytes.drop 5)] upgraded () := by
    refine ⟨window_holds (by decide), fun s₁ io₁ w₁ called => ?_⟩
    rw [called] at first second
    have left₁ : io₁.rx.rbuf = interruptedBytes.drop 3 := Option.some.inj first
    rw [left₁]
    refine ⟨window_holds (by decide), fun s₂ io₂ w₂ called₂ => ?_⟩
    rw [Option.bind_some, called₂] at second
    have left₂ : io₂.rx.rbuf = interruptedBytes.drop 5 := Option.some.inj second
    rw [left₂]
    exact ⟨window_holds (by decide), fun _ _ _ _ => trivial⟩
  have room : List.Forall₂ Room (interrupted.flatMap Item.frames) [window interruptedBytes,
      window (interruptedBytes.drop 3), window (interruptedBytes.drop 5)] :=
    .cons (by simp [Room]) (.cons (fun _ => by decide) (.cons (by simp [Room]) .nil))
  exact (messages_delivered (K := zeroCrypto) (s := upgraded) (w := ()) text binary rfl rfl fits).1
    _ (.stream [] _ listener_leaves.1 listener_leaves.2 brings threads) room

end WebSocketSession

end Manet.Protocol
