/-
# Manet.Protocol.ServerStream — a session on the stream of a server

What a server sends in one connection is a response and frames that keep the rules
(`ServerStream`).  A session has read a part of it that ends with the response or with a frame,
and has given the codec the messages of that part, no more and no fewer (`Hears`); the bytes
behind it are in RX.

`onData_hears` is one call of `on_data`: it takes the next unit of the stream if it is there as a
whole, and otherwise waits (`Waits`).  A session that waits has given the codec every message that
has arrived (`Hears.complete`).  The codec is any that leaves RX alone.
-/
import Manet.Protocol.ServerFrames
import Manet.Protocol.WebSocketMessages

namespace Manet.Protocol

open Manet.Reactor

set_option autoImplicit false

/-- What the frame means. -/
def ServerFrame.frame (f : ServerFrame) : Frame :=
  ⟨.ofNibble (UInt8.ofNat f.opcode.val), f.fin, f.payload⟩

/-- An encoded frame carries what it means, whatever follows it. -/
theorem ServerFrame.carries_encode (f : ServerFrame) (t : List UInt8) :
    Carries (f.encode ++ t) f.frame := by
  obtain ⟨clear, op, fin⟩ := firstByte_reads f.fin f.opcode
  have first : (f.encode ++ t).getD 0 0 = f.firstByte := rfl
  have shape : f.encode ++ t = f.header ++ (f.payload ++ t) := List.append_assoc _ _ _
  have payload : ((f.encode ++ t).drop f.header.length).take f.payload.length = f.payload := by
    rw [shape, List.drop_left, List.take_left]
  refine ⟨?_, ?_, f.header.length, f.payload.length, ?_, ?_, ?_⟩
  · rw [first]
    exact clear
  · rw [masked_eq_false_iff, shape]
    exact f.second_byte (f.payload ++ t)
  · rw [shape]
    exact f.wireHeader_header (f.payload ++ t)
  · rw [List.length_append, encode_length]
    omega
  · rw [first, payload, frame]
    exact congrArg₂ (Frame.mk · · f.payload) op.symm fin.symm

theorem encodeAll_append (fs gs : List ServerFrame) :
    encodeAll (fs ++ gs) = encodeAll fs ++ encodeAll gs := List.flatMap_append

theorem encodeAll_cons (f : ServerFrame) (fs : List ServerFrame) :
    encodeAll (f :: fs) = f.encode ++ encodeAll fs := List.flatMap_cons

/-- The response and the frames of one connection; the frames keep the rules. -/
structure ServerStream where
  response : List UInt8
  frames : List ServerFrame
  legal : (reassemble none (frames.map ServerFrame.frame)).2 ≠ none

namespace ServerStream

variable (st : ServerStream)

/-- The stream up to its frame `k`. -/
def upTo (k : Nat) : List UInt8 := st.response ++ encodeAll (st.frames.take k)

def bytes : List UInt8 := st.response ++ encodeAll st.frames

/-- What the frames up to frame `k` mean: the messages, and the one in progress. -/
def meaning (k : Nat) : List Message × Option Assembly :=
  reassemble none ((st.frames.take k).map ServerFrame.frame)

theorem upTo_append (k : Nat) : st.upTo k ++ encodeAll (st.frames.drop k) = st.bytes := by
  rw [upTo, bytes, List.append_assoc, ← encodeAll_append, List.take_append_drop]

/-- A part of the frames keeps the rules as well, and the rest goes on from there. -/
theorem meaning_legal (k : Nat) :
    ∃ messages a, st.meaning k = (messages, some a) ∧
      reassemble none (st.frames.map ServerFrame.frame) =
        (messages ++ (reassemble a ((st.frames.drop k).map ServerFrame.frame)).1,
          (reassemble a ((st.frames.drop k).map ServerFrame.frame)).2) := by
  have split : st.frames.map ServerFrame.frame =
      (st.frames.take k).map ServerFrame.frame ++ (st.frames.drop k).map ServerFrame.frame := by
    rw [← List.map_append, List.take_append_drop]
  rcases part : st.meaning k with ⟨messages, _ | a⟩
  · have broken := reassemble_broken part ((st.frames.drop k).map ServerFrame.frame)
    rw [← split] at broken
    exact absurd (congrArg Prod.snd broken) st.legal
  · refine ⟨messages, a, rfl, ?_⟩
    rw [split]
    exact reassemble_append part _

theorem upTo_succ {k : Nat} {f : ServerFrame} {later : List ServerFrame}
    (next : st.frames.drop k = f :: later) : st.upTo (k + 1) = st.upTo k ++ f.encode := by
  have one : st.frames.take (k + 1) = st.frames.take k ++ [f] := by
    rw [List.take_add, next]
    rfl
  rw [upTo, upTo, one, encodeAll_append, List.append_assoc]
  exact congrArg _ (congrArg _ (List.append_nil _))

theorem meaning_succ {k : Nat} {f : ServerFrame} {later : List ServerFrame}
    (next : st.frames.drop k = f :: later) {messages : List Message} {a : Assembly}
    (meaning : st.meaning k = (messages, some a)) :
    ∃ a' out, Takes a f.frame a' out ∧ st.meaning (k + 1) = (messages ++ out.toList, some a') := by
  have one : (st.frames.take (k + 1)).map ServerFrame.frame =
      (st.frames.take k).map ServerFrame.frame ++ [f.frame] := by
    rw [List.take_add, next, List.map_append]
    rfl
  obtain ⟨read, a', whole, -⟩ := st.meaning_legal (k + 1)
  have split := reassemble_append meaning [f.frame]
  rw [← one] at split
  have legal : reassemble a [f.frame] = ((reassemble a [f.frame]).1, some a') :=
    Prod.ext rfl (Prod.mk.inj (split.symm.trans whole)).2
  obtain ⟨a₁, out, rest, takes, last, -⟩ := reassemble_legal legal
  cases last
  refine ⟨a', out, takes, ?_⟩
  rw [ServerStream.meaning, split, reassemble_cons takes]
  simp [reassemble]

variable {ω : Type} (C : Codec ω)

/-- What the codec is to be given for the frames up to frame `k`. -/
def calls (k : Nat) : List (OpCode × Span) :=
  ((st.meaning k).1.filter (C.handles ·.op)).map Message.call

theorem calls_zero : st.calls C 0 = [] := rfl

theorem calls_succ {k : Nat} {messages : List Message} {a a' : Assembly} {out : Option Message}
    (meaning : st.meaning k = (messages, some a))
    (next : st.meaning (k + 1) = (messages ++ out.toList, some a')) :
    st.calls C (k + 1) = st.calls C k ++ (out.toList.filter (C.handles ·.op)).map Message.call := by
  simp only [calls, meaning, next, List.filter_append, List.map_append]

theorem calls_mono {j k : Nat} (le : j ≤ k) : st.calls C j <+: st.calls C k := by
  obtain ⟨messages, a, meaning, -⟩ := st.meaning_legal j
  obtain ⟨rest, split⟩ := List.take_prefix_take_left (l := st.frames) le
  have more := reassemble_append meaning (rest.map ServerFrame.frame)
  rw [← List.map_append, split] at more
  have grown : (st.meaning j).1 <+: (st.meaning k).1 := by
    rw [meaning, ServerStream.meaning, more]
    exact List.prefix_append _ _
  exact (grown.filter _).map _

/-- What the codec is to be given for the whole stream. -/
def allCalls : List (OpCode × Span) := st.calls C st.frames.length

end ServerStream

/-! ## What a session has heard -/

variable {ω : Type} {C : Codec ω} (K : Crypto ω)

/-- The response is right for the key the session has sent, to its last byte. -/
def ServerStream.Answers (st : ServerStream) (s : WebSocketSession C) : Prop :=
  readHandshake s.acceptKey.toList st.response = (.ok, some st.response.length)

/-- The session has read this much of the stream, and has given the codec what is in it. -/
inductive Hears (st : ServerStream) (s : WebSocketSession C) : List UInt8 → Prop where
  | waiting (early : s.state ≠ .listening) (silent : s.callbacks = []) (empty : s.msg = []) :
      Hears st s []
  | listening {k : Nat} {messages : List Message} {a : Assembly} (inside : k ≤ st.frames.length)
      (meaning : st.meaning k = (messages, some a)) (assembling : s.Assembling a)
      (given : s.callbacks = st.calls C k) : Hears st s (st.upTo k)

/-- The next call of `on_data` would leave the bytes where they are. -/
def Waits (s : WebSocketSession C) (unread : List UInt8) : Prop :=
  match s.state with
  | .idle => False
  | .handshakeSent => (readHandshake s.acceptKey.toList unread).2 = none
  | .listening => parseFrame unread = .needMore

theorem waits_nil {s : WebSocketSession C} (connected : s.state ≠ .idle) : Waits s [] := by
  unfold Waits
  cases state : s.state with
  | idle => exact absurd state connected
  | handshakeSent => rfl
  | listening => rfl

theorem Hears.genuine {st : ServerStream} {s : WebSocketSession C} {heard : List UInt8}
    (hears : Hears st s heard) : s.callbacks <+: st.allCalls C := by
  cases hears with
  | waiting _ silent =>
      rw [silent]
      exact List.nil_prefix
  | listening inside _ _ given =>
      rw [given]
      exact st.calls_mono C inside

/-- **A session that waits has given the codec every message that has arrived.** -/
theorem Hears.complete {st : ServerStream} {s : WebSocketSession C} {heard unread : List UInt8}
    (hears : Hears st s heard) (answers : st.Answers s) (waits : Waits s unread)
    {j : Nat} (arrived : st.upTo j <+: heard ++ unread) : st.calls C j <+: s.callbacks := by
  cases hears with
  | waiting early =>
      cases state : s.state with
      | idle =>
          simp only [Waits, state] at waits
      | listening => exact absurd state early
      | handshakeSent =>
          simp only [Waits, state] at waits
          obtain ⟨more, arrived⟩ := arrived
          have whole : unread = st.response ++ (encodeAll (st.frames.take j) ++ more) := by
            rw [← List.nil_append unread, ← arrived, ServerStream.upTo, List.append_assoc]
          have done : (readHandshake s.acceptKey.toList st.response).2 ≠ none := by
            rw [answers]
            simp
          rw [whole, readHandshake_append _ done] at waits
          exact absurd waits done
  | @listening k messages a inside meaning assembling given =>
      rw [given]
      by_cases before : j ≤ k
      · exact st.calls_mono C before
      cases next : st.frames.drop k with
      | nil =>
          have all : st.frames.length ≤ k := List.drop_eq_nil_iff.mp next
          have same : st.calls C j = st.calls C k := by
            unfold ServerStream.calls ServerStream.meaning
            rw [List.take_of_length_le all, List.take_of_length_le (by omega)]
          exact same ▸ List.prefix_rfl
      | cons f later =>
          -- frame `k` is there as a whole, so the session would not wait
          have longer : st.upTo (k + 1) <+: st.upTo j := by
            obtain ⟨rest, split⟩ :=
              List.take_prefix_take_left (l := st.frames) (show k + 1 ≤ j by omega)
            refine ⟨encodeAll rest, ?_⟩
            rw [ServerStream.upTo, ServerStream.upTo, List.append_assoc, ← encodeAll_append, split]
          have here := longer.trans arrived
          rw [st.upTo_succ next, List.prefix_append_right_inj] at here
          obtain ⟨more, here⟩ := here
          have listening := assembling.listening
          simp only [Waits, listening] at waits
          rw [← here, f.parseFrame_encode more] at waits
          cases waits

/-! ## One call -/

namespace WebSocketSession

variable {K} {s s' : WebSocketSession C} {io io' : Io} {w w' : ω} {status : Status}

theorem handleFrame_key {op : OpCode} {payload : Span}
    (answered : handleFrame K s io op payload w = some (status, s', io', w')) :
    s'.acceptKey = s.acceptKey := by
  have calls : ∀ {op : OpCode}
      {handler : Option (C.State → Io → Span → ω → Option (Status × C.State × Io × ω))},
      callCodec op handler s io payload w = some (status, s', io', w') →
      s'.acceptKey = s.acceptKey := by
    intro op handler called
    cases handler with
    | none =>
        cases called
        rfl
    | some g =>
        obtain ⟨⟨status₁, codec, io₁, w₁⟩, -, same⟩ := Option.map_eq_some_iff.mp called
        cases same
        rfl
  cases op with
  | text | binary => exact calls answered
  | cont | pong | reserved =>
      cases answered
      rfl
  | close | ping =>
      simp only [handleFrame] at answered
      repeat' split at answered
      all_goals
        cases answered
        rfl

theorem addFragment_key {frame : FrameView}
    (answered : addFragment K s io frame w = some (status, s', io', w')) :
    s'.acceptKey = s.acceptKey := by
  unfold addFragment at answered
  split at answered
  · cases answered
    rfl
  split at answered
  · cases answered
    rfl
  split at answered
  · cases answered
  simp only at answered
  split at answered
  · obtain ⟨⟨status₁, s₁, io₁, w₁⟩, handled, same⟩ := Option.map_eq_some_iff.mp answered
    cases same
    exact (handleFrame_key handled :)
  · split at answered <;> cases answered <;> rfl

/-- Only `on_connect` sets the key. -/
theorem onData_key (answered : onData K s io w = some (status, s', io', w')) :
    s'.acceptKey = s.acceptKey := by
  cases state : s.state with
  | idle =>
      unfold onData at answered
      rw [state] at answered
      cases answered
      rfl
  | handshakeSent =>
      obtain ⟨-, -, next⟩ := onData_sent state answered
      rw [next]
      split <;> rfl
  | listening =>
      unfold onData at answered
      rw [state] at answered
      dsimp only at answered
      unfold dispatchFrame at answered
      split at answered
      · dsimp only at answered
        split at answered
        · exact addFragment_key answered
        · exact handleFrame_key answered
      all_goals
        cases answered
        rfl

/-- What one call of `on_data` makes of the stream. -/
structure Heard (st : ServerStream) (heard : List UInt8) (io : Io) (status : Status)
    (s' : WebSocketSession C) (io' : Io) : Prop where
  genuine : s'.callbacks <+: st.allCalls C
  goesOn : status = .ok → Hears st s' (heard ++ io.rx.removed io'.rx)
  waits : status = .ok → io.rx.rsize ≤ io'.rx.rsize → Waits s' io'.rx.rbuf

/-- The handshake: the response is there to its last byte, or the session waits. -/
theorem onData_response {st : ServerStream} (sent : s.state = .handshakeSent)
    (silent : s.callbacks = []) (empty : s.msg = []) (answers : st.Answers s)
    (valid : io.rx.Valid) (fits : io.rx.rbuf <+: st.bytes)
    (answered : onData K s io w = some (status, s', io', w')) : Heard st [] io status s' io' := by
  unfold onData at answered
  rw [sent] at answered
  dsimp only at answered
  have done : (readHandshake s.acceptKey.toList st.response).2 ≠ none := by
    rw [answers]
    simp
  rcases read : readHandshake s.acceptKey.toList io.rx.rbuf with ⟨answer, _ | n⟩
  · have waits := readHandshake_waits (by rw [read])
    rw [read] at waits
    cases waits
    rw [read] at answered
    simp only [Option.map_none, Option.getD_none, ne_eq, not_true_eq_false, false_and, if_false]
      at answered
    cases answered
    have same : io.rx.removed io.rx = [] := by simp [Buffer.removed]
    have still : Hears st s [] := .waiting (by rw [sent]; simp) silent empty
    refine ⟨still.genuine, fun _ => ?_, fun _ _ => ?_⟩
    · simpa [same] using still
    · simp [Waits, sent, read]
  · -- what was read as a response is the response
    have whole : st.response <+: io.rx.rbuf := by
      refine List.prefix_of_prefix_length_le (List.prefix_append _ _) fits ?_
      by_contra short
      have part : io.rx.rbuf <+: st.response :=
        List.prefix_of_prefix_length_le fits (List.prefix_append _ _) (by omega)
      obtain ⟨more, part⟩ := part
      have ended : (readHandshake s.acceptKey.toList io.rx.rbuf).2 ≠ none := by
        rw [read]
        simp
      have same := readHandshake_append more ended
      have inside := (readHandshake_consumed read).2
      rw [part, answers, read] at same
      cases same
      omega
    obtain ⟨more, whole⟩ := whole
    have same := readHandshake_append more done
    rw [whole, answers, read] at same
    cases same
    obtain ⟨positive, inside⟩ := readHandshake_consumed read
    rw [Buffer.rbuf_length] at inside
    have size := Buffer.rsize_incRpos rx_small valid inside
    have moved : (io.rx.incRpos st.response.length).rsize ≠ io.rx.rsize := by omega
    rw [read] at answered
    simp only [Option.map_some, Option.getD_some, ne_eq, moved, not_false_eq_true, and_self,
      if_true] at answered
    cases answered
    have taken : io.rx.removed (io.rx.incRpos st.response.length) = st.upTo 0 := by
      rw [Buffer.removed, size, Nat.sub_sub_self inside, ← whole, List.take_left]
      exact (List.append_nil _).symm
    refine ⟨?_, fun _ => ?_, fun _ still => ?_⟩
    · show s.callbacks <+: _
      rw [silent]
      exact List.nil_prefix
    · dsimp only
      rw [taken, List.nil_append]
      refine .listening (Nat.zero_le _) rfl (assembling_none rfl empty) ?_
      show s.callbacks = _
      rw [silent]
      exact (st.calls_zero C).symm
    · exact absurd still (by dsimp only; omega)

/-- The frames: the next one is there to its last byte, or the session waits. -/
theorem onData_next {st : ServerStream} (text : LeavesRx C.onText) (binary : LeavesRx C.onBinary)
    {k : Nat} {messages : List Message} {a : Assembly} (inside : k ≤ st.frames.length)
    (meaning : st.meaning k = (messages, some a)) (assembling : s.Assembling a)
    (given : s.callbacks = st.calls C k) (valid : io.rx.Valid)
    (fits : st.upTo k ++ io.rx.rbuf <+: st.bytes)
    (answered : onData K s io w = some (status, s', io', w')) :
    Heard st (st.upTo k) io status s' io' := by
  have hears : Hears st s (st.upTo k) := .listening inside meaning assembling given
  have ahead : io.rx.rbuf <+: encodeAll (st.frames.drop k) := by
    rw [← st.upTo_append k, List.prefix_append_right_inj] at fits
    exact fits
  -- a call that finds no frame
  have still : parseFrame io.rx.rbuf = .needMore → Heard st (st.upTo k) io status s' io' := by
    intro none
    unfold onData at answered
    rw [assembling.listening] at answered
    dsimp only at answered
    unfold dispatchFrame at answered
    rw [none] at answered
    cases answered
    have same : io.rx.removed io.rx = [] := by simp [Buffer.removed]
    refine ⟨hears.genuine, fun _ => ?_, fun _ _ => ?_⟩
    · rw [same, List.append_nil]
      exact hears
    · simpa only [Waits, assembling.listening] using none
  cases next : st.frames.drop k with
  | nil =>
      rw [next] at ahead
      have nothing : io.rx.rbuf = [] := List.prefix_nil.mp ahead
      exact still (by rw [nothing]; rfl)
  | cons f later =>
      rw [next, encodeAll_cons] at ahead
      by_cases short : io.rx.rbuf.length < f.encode.length
      · have part : io.rx.rbuf <+: f.encode :=
          List.prefix_of_prefix_length_le ahead (List.prefix_append _ _) (by omega)
        rw [List.prefix_iff_eq_take] at part
        apply still
        rw [part]
        exact f.parseFrame_cut short
      · obtain ⟨more, here⟩ : f.encode <+: io.rx.rbuf :=
          List.prefix_of_prefix_length_le (List.prefix_append _ _) ahead (by omega)
        have presents : Presents f.frame io := ⟨valid, here ▸ f.carries_encode more⟩
        obtain ⟨a', out, takes, meaning'⟩ := st.meaning_succ next meaning
        by_cases large : Overflows MSG_CAP a f.frame
        · obtain ⟨io₁, refused⟩ := onData_overflows (K := K) (w := w) assembling presents large
          rw [refused] at answered
          cases answered
          have failed : Status.error ≠ .ok := by decide
          exact ⟨hears.genuine, fun ok => absurd ok failed, fun ok => absurd ok failed⟩
        · obtain ⟨assembling', callbacks⟩ := onData_takes assembling presents takes large answered
          obtain ⟨hdr, len, header, rest⟩ := onData_consumes text binary assembling presents answered
          have one : k + 1 ≤ st.frames.length := by
            have := congrArg List.length next
            rw [List.length_drop, List.length_cons] at this
            omega
          have given' : s'.callbacks = st.calls C (k + 1) := by
            rw [callbacks, given, st.calls_succ C meaning meaning']
          have hears' : Hears st s' (st.upTo (k + 1)) := .listening one meaning' assembling' given'
          -- the frame is exactly what was taken
          have shape : io.rx.rbuf = f.header ++ (f.payload ++ more) := by
            rw [← here, ServerFrame.encode, List.append_assoc]
          rw [shape, f.wireHeader_header] at header
          cases header
          rw [← f.encode_length, ← here, List.drop_left] at rest
          have size : io.rx.rsize - io'.rx.rsize = f.encode.length := by
            rw [← Buffer.rbuf_length, ← Buffer.rbuf_length, rest, ← here, List.length_append]
            omega
          have taken : io.rx.removed io'.rx = f.encode := by
            rw [Buffer.removed, size, ← here, List.take_left]
          refine ⟨hears'.genuine, fun _ => ?_, fun _ grown => ?_⟩
          · rw [taken, ← st.upTo_succ next]
            exact hears'
          · have positive := f.header_length_pos
            have length := f.encode_length
            omega

/-- **One call of `on_data` takes the next unit of the stream, if it is there as a whole**, and
gives the codec the message it completes; otherwise it takes nothing. -/
theorem onData_hears {st : ServerStream} (text : LeavesRx C.onText) (binary : LeavesRx C.onBinary)
    {heard : List UInt8} (hears : Hears st s heard) (answers : st.Answers s) (valid : io.rx.Valid)
    (fits : heard ++ io.rx.rbuf <+: st.bytes)
    (answered : onData K s io w = some (status, s', io', w')) : Heard st heard io status s' io' := by
  cases hears with
  | waiting early silent empty =>
      cases state : s.state with
      | listening => exact absurd state early
      | handshakeSent => exact onData_response state silent empty answers valid fits answered
      | idle =>
          unfold onData at answered
          rw [state] at answered
          cases answered
          refine ⟨?_, nofun, nofun⟩
          rw [silent]
          exact List.nil_prefix
  | listening inside meaning assembling given =>
      exact onData_next text binary inside meaning assembling given valid fits answered

end WebSocketSession

end Manet.Protocol
