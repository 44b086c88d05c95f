/-
# Manet.Protocol.WebSocketSession — the WebSocket session and its handlers

`WebSocket<Codec>::Session` (`protocol/websocket.hpp`), handler by handler, over any
codec (`protocol/websocket_concepts.hpp`).  A codec's handlers get both buffers and
may do anything with them.

`msg_buf` and `msg_len` are one list, the bytes assembled so far.  Copying a span
that claims more bytes than are there does not return.  `callbacks` is the only
field the source does not have: the codec's handlers that were called and answered,
with what they were given, oldest first.
-/
import Manet.Protocol.WebSocketHandshake

namespace Manet.Protocol

open Manet.Reactor

set_option autoImplicit false

/-- A message codec.  The handlers it does not declare are `none`. -/
structure Codec (ω : Type) where
  Config : Type
  State : Type
  make : Config → State
  onText : Option (State → Io → Span → ω → Option (Status × State × Io × ω))
  onBinary : Option (State → Io → Span → ω → Option (Status × State × Io × ω))
  onShutdown : Option (State → ω → CloseCode × State × ω)

inductive SessionState where
  | idle
  | handshakeSent
  | listening
  deriving DecidableEq, Repr

structure WebSocketConfig (Config : Type) where
  path : String
  extra : List Header
  codecConfig : Config

structure WebSocketSession {ω : Type} (C : Codec ω) where
  host : String
  path : String
  extra : List Header
  /-- `msg_buf.first(msg_len)` -/
  msg : List UInt8
  acceptKey : Vector UInt8 28
  /-- The opcode of the fragmented message; the source leaves it uninitialised. -/
  opcode : OpCode
  state : SessionState
  codec : C.State
  callbacks : List (OpCode × Span)

def MSG_CAP : Nat := 2 ^ 20

variable {ω : Type} {C : Codec ω} (K : Crypto ω)

namespace WebSocketSession

def make (indeterminate : OpCode) (host : String) (config : WebSocketConfig C.Config) :
    WebSocketSession C where
  host := host
  path := config.path
  extra := config.extra
  msg := []
  acceptKey := Vector.replicate 28 0
  opcode := indeterminate
  state := .idle
  codec := C.make config.codecConfig
  callbacks := []

def onConnect : Handler (WebSocketSession C) ω := fun s io w =>
  let (handshake, w) := makeHandshake K s.host s.path s.extra w
  if io.tx.wsize < handshake.upgradeRequest.length then some (.error, s, io, w)
  else
    some (.ok, { s with acceptKey := handshake.acceptKey, state := .handshakeSent },
      { io with tx := io.tx.write handshake.upgradeRequest }, w)

/-- A codec's handler for `op`, if it is declared. -/
def callCodec (op : OpCode)
    (handler : Option (C.State → Io → Span → ω → Option (Status × C.State × Io × ω)))
    (s : WebSocketSession C) (io : Io) (payload : Span) (w : ω) :
    Option (Status × WebSocketSession C × Io × ω) :=
  match handler with
  | none => some (.ok, s, io, w)
  | some f =>
      (f s.codec io payload w).map fun (status, codec, io, w) =>
        (status, { s with codec := codec, callbacks := s.callbacks ++ [(op, payload)] }, io, w)

/-- The reply to a close frame: its code, or "normal", under a fixed mask.  A payload that
claims more bytes than are there is read on into the memory behind it. -/
def closeReply (payload : Span) (behind : Nat → UInt8) : List UInt8 :=
  let p := fun i => payload.bytes.getD i (behind (i - payload.bytes.length))
  let code : UInt16 :=
    if 2 ≤ payload.size then ((p 0).toUInt16 <<< 8) ||| (p 1).toUInt16
    else CloseCode.normal.toUInt16
  [0x80 ||| OpCode.close.toByte, 0x80 ||| 0x02, 0xDE, 0xAD, 0xBE, 0xEF,
    (code >>> 8).toUInt8 ^^^ 0xDE, (code &&& 0xff).toUInt8 ^^^ 0xAD]

def handleFrame (s : WebSocketSession C) (io : Io) (opcode : OpCode) (payload : Span) (w : ω) :
    Option (Status × WebSocketSession C × Io × ω) :=
  match opcode with
  | .cont => some (.ok, s, io, w)
  | .text => callCodec .text C.onText s io payload w
  | .binary => callCodec .binary C.onBinary s io payload w
  | .close =>
      if 8 ≤ io.tx.wsize then
        -- only a view into RX claims more than is there, and then RX has not been rewound
        some (.close, s, { io with tx := io.tx.write (closeReply payload io.rx.behind) }, w)
      else some (.close, s, io, w)
  | .ping =>
      if 126 ≤ payload.size then some (.close, s, io, w)
      else if io.tx.wsize < sizeAdd 6 payload.size then some (.close, s, io, w)
      else
        let (bytes, w) := writeControlFrame K io.tx.wsize .pong payload w
        some (.ok, s, { io with tx := io.tx.write bytes }, w)
  | .pong => some (.ok, s, io, w)
  | .reserved _ => some (.ok, s, io, w)

/-- The fragment path of `dispatch_frame`: append to the message, and hand it over
when it is finished. -/
def addFragment (s : WebSocketSession C) (io : Io) (frame : FrameView) (w : ω) :
    Option (Status × WebSocketSession C × Io × ω) :=
  if MSG_CAP < sizeAdd s.msg.length frame.payload.size then some (.error, s, io, w)
  else if frame.payloadLen ≠ frame.payload.size then some (.error, s, io, w)
  else if frame.payload.bytes.length ≠ frame.payload.size then none
  else
    let s := { s with msg := s.msg ++ frame.payload.bytes }
    if frame.fin then
      (handleFrame K s io s.opcode ⟨s.msg, s.msg.length⟩ w).map fun (status, s, io, w) =>
        (status, { s with msg := [] }, io, w)
    else if frame.op ≠ .cont then some (.ok, { s with opcode := frame.op }, io, w)
    else some (.ok, s, io, w)

def dispatchFrame : Handler (WebSocketSession C) ω := fun s io w =>
  match parseFrame io.rx.rbuf with
  | .ok parsed =>
      let io := { io with rx := io.rx.incRpos parsed.consumed }
      if ¬ parsed.frame.fin ∨ parsed.frame.op = .cont then addFragment K s io parsed.frame w
      else handleFrame K s io parsed.frame.op parsed.frame.payload w
  | .needMore => some (.ok, s, io, w)
  | .maskedServer => some (.error, s, io, w)
  | .badReserved => some (.error, s, io, w)

def onData : Handler (WebSocketSession C) ω := fun s io w =>
  match s.state with
  | .handshakeSent =>
      let (status, consumed) := readHandshake s.acceptKey.toList io.rx.rbuf
      let rx := (consumed.map io.rx.incRpos).getD io.rx
      let s := if rx.rsize ≠ io.rx.rsize ∧ status = .ok then { s with state := .listening } else s
      some (status, s, { io with rx := rx }, w)
  | .listening => dispatchFrame K s io w
  | .idle => some (.error, s, io, w)

def onShutdown : Handler (WebSocketSession C) ω := fun s io w =>
  let (code, s, w) :=
    match C.onShutdown with
    | none => (CloseCode.normal, s, w)
    | some f => let (code, codec, w) := f s.codec w; (code, { s with codec := codec }, w)
  let (sent, w) := writeClose K io.tx.wsize code w
  some (if 0 < sent.length then .close else .error, s, { io with tx := io.tx.write sent }, w)

def heartbeat (s : WebSocketSession C) (tx : Buffer TX_CAP) (w : ω) :
    Option (WebSocketSession C × Buffer TX_CAP × ω) :=
  let (bytes, w) := writeControlFrame K tx.wsize .ping ⟨[], 0⟩ w
  some (s, tx.write bytes, w)

end WebSocketSession

/-- `WebSocket<Codec>`; `indeterminate` stands for the value of an uninitialised
opcode. -/
def webSocket (C : Codec ω) (indeterminate : OpCode) : Layer ω where
  Config := WebSocketConfig C.Config
  Session := WebSocketSession C
  session host _ config := .make indeterminate host config
  onConnect := some (WebSocketSession.onConnect K)
  onData := WebSocketSession.onData K
  onShutdown := some (WebSocketSession.onShutdown K)
  heartbeat := some (WebSocketSession.heartbeat K)
  teardown := none

/-! ## The handlers stay within their windows -/

/-- The codec only reads and writes within the windows it is given. -/
structure Codec.Within (C : Codec ω) : Prop where
  onText : ∀ f, C.onText = some f → ∀ {st io payload w status st' io' w'},
    f st io payload w = some (status, st', io', w') → Io.Uses io io'
  onBinary : ∀ f, C.onBinary = some f → ∀ {st io payload w status st' io' w'},
    f st io payload w = some (status, st', io', w') → Io.Uses io io'

namespace WebSocketSession

variable {K} {s s' : WebSocketSession C} {io io' : Io} {w w' : ω} {status : Status}

theorem callCodec_uses {op : OpCode} {payload : Span}
    {handler : Option (C.State → Io → Span → ω → Option (Status × C.State × Io × ω))}
    (within : ∀ f, handler = some f → ∀ {st io payload w status st' io' w'},
      f st io payload w = some (status, st', io', w') → Io.Uses io io')
    (answered : callCodec op handler s io payload w = some (status, s', io', w')) :
    Io.Uses io io' := by
  unfold callCodec at answered
  cases handler with
  | none =>
      cases answered
      exact .done _
  | some f =>
      obtain ⟨⟨status₁, codec, io₁, w₁⟩, called, same⟩ := Option.map_eq_some_iff.mp answered
      cases same
      exact within f rfl called

theorem closeReply_length (payload : Span) (behind : Nat → UInt8) :
    (closeReply payload behind).length = 8 := rfl

/-- A payload that is there as a whole is all that the reply depends on. -/
theorem closeReply_whole {payload : Span} (whole : payload.bytes.length = payload.size)
    (behind behind' : Nat → UInt8) : closeReply payload behind = closeReply payload behind' := by
  unfold closeReply
  by_cases coded : 2 ≤ payload.size
  · have inside : ∀ i < 2, ∀ d d' : UInt8, payload.bytes.getD i d = payload.bytes.getD i d' := by
      intro i small d d'
      have there : i < payload.bytes.length := by omega
      rw [List.getD_eq_getElem _ _ there, List.getD_eq_getElem _ _ there]
    dsimp only
    rw [inside 0 (by decide) _ (behind' (0 - payload.bytes.length)),
      inside 1 (by decide) _ (behind' (1 - payload.bytes.length))]
  · simp only [if_neg coded]

theorem handleFrame_uses (within : C.Within) {opcode : OpCode} {payload : Span}
    (counted : payload.bytes.length ≤ payload.size)
    (answered : handleFrame K s io opcode payload w = some (status, s', io', w')) :
    Io.Uses io io' := by
  cases opcode with
  | cont | pong | reserved =>
      cases answered
      exact .done _
  | text => exact callCodec_uses within.onText answered
  | binary => exact callCodec_uses within.onBinary answered
  | close =>
      simp only [handleFrame] at answered
      split at answered
      · rename_i room
        rw [← closeReply_length payload io.rx.behind] at room
        cases answered
        exact Io.uses_write room
      · cases answered
        exact .done _
  | ping =>
      simp only [handleFrame] at answered
      split at answered
      · cases answered
        exact .done _
      split at answered
      · cases answered
        exact .done _
      · cases answered
        exact Io.uses_write (writeControlFrame_fits K w counted)

theorem addFragment_uses (within : C.Within) {frame : FrameView}
    (answered : addFragment K s io frame w = some (status, s', io', w')) : Io.Uses io io' := by
  unfold addFragment at answered
  split at answered
  · cases answered
    exact .done _
  split at answered
  · cases answered
    exact .done _
  split at answered
  · cases answered
  simp only at answered
  split at answered
  · obtain ⟨⟨status₁, s₁, io₁, w₁⟩, called, same⟩ := Option.map_eq_some_iff.mp answered
    cases same
    exact handleFrame_uses within (Nat.le_refl _) called
  · split at answered
    · cases answered
      exact .done _
    · cases answered
      exact .done _

/-- A frame is consumed within the window, even one whose length wraps. -/
theorem dispatchFrame_uses (within : C.Within) :
    Handler.Uses (dispatchFrame K : Handler (WebSocketSession C) ω) := by
  intro s io w status s' io' w' answered
  unfold dispatchFrame at answered
  cases parsed : parseFrame io.rx.rbuf with
  | ok out =>
      obtain ⟨complete, counted⟩ := parseFrame_within parsed
      rw [Buffer.rbuf_length] at complete
      rw [parsed] at answered
      dsimp only at answered
      refine .read out.consumed complete ?_
      split at answered
      · exact addFragment_uses within answered
      · exact handleFrame_uses within counted answered
  | needMore | maskedServer | badReserved =>
      rw [parsed] at answered
      cases answered
      exact .done _

theorem onData_uses (within : C.Within) :
    Handler.Uses (onData K : Handler (WebSocketSession C) ω) := by
  intro s io w status s' io' w' answered
  unfold onData at answered
  cases state : s.state with
  | idle =>
      rw [state] at answered
      cases answered
      exact .done _
  | listening =>
      rw [state] at answered
      exact dispatchFrame_uses within answered
  | handshakeSent =>
      rw [state] at answered
      rcases read : readHandshake s.acceptKey.toList io.rx.rbuf with ⟨answer, _ | consumed⟩
      · rw [read] at answered
        cases answered
        exact .done _
      · rw [read] at answered
        cases answered
        have inside := (readHandshake_consumed read).2
        rw [Buffer.rbuf_length] at inside
        exact .read consumed inside (.done _)

theorem onConnect_uses : Handler.Uses (onConnect K : Handler (WebSocketSession C) ω) := by
  intro s io w status s' io' w' answered
  simp only [onConnect] at answered
  split at answered
  · cases answered
    exact .done _
  · rename_i room
    cases answered
    exact Io.uses_write (Nat.le_of_not_lt room)

theorem onShutdown_uses : Handler.Uses (onShutdown K : Handler (WebSocketSession C) ω) := by
  intro s io w status s' io' w' answered
  simp only [onShutdown, Option.some.injEq, Prod.mk.injEq] at answered
  obtain ⟨-, -, rfl, -⟩ := answered
  exact Io.uses_write (writeClose_fits K _)

theorem heartbeat_uses {tx tx' : Buffer TX_CAP}
    (answered : heartbeat K s tx w = some (s', tx', w')) (rx : Buffer RX_CAP) :
    Io.Uses ⟨rx, tx⟩ ⟨rx, tx'⟩ := by
  simp only [heartbeat, Option.some.injEq, Prod.mk.injEq] at answered
  obtain ⟨-, rfl, -⟩ := answered
  have fits : (writeControlFrame K tx.wsize .ping ⟨[], 0⟩ w).1.length ≤ tx.wsize :=
    writeControlFrame_fits K w (Nat.le_refl 0)
  exact @Io.uses_write ⟨rx, tx⟩ _ fits

end WebSocketSession

/-- **A WebSocket session stays within its windows if its codec does.** -/
theorem webSocket_uses (within : C.Within) (indeterminate : OpCode) :
    (webSocket K C indeterminate).Uses where
  onConnect f declared := by
    rw [← Option.some.inj declared]
    exact WebSocketSession.onConnect_uses
  onData := WebSocketSession.onData_uses within
  onShutdown f declared := by
    rw [← Option.some.inj declared]
    exact WebSocketSession.onShutdown_uses
  heartbeat f declared {s tx w s' tx' w'} answered rx := by
    rw [← Option.some.inj declared] at answered
    exact WebSocketSession.heartbeat_uses answered rx

/-! ## What the handlers keep of the session -/

/-- The same connection, in the same state. -/
structure WebSocketSession.Kept (s s' : WebSocketSession C) : Prop where
  host : s'.host = s.host
  path : s'.path = s.path
  extra : s'.extra = s.extra
  state : s'.state = s.state

namespace WebSocketSession

variable {K} {s s' : WebSocketSession C} {io io' : Io} {w w' : ω} {status : Status}

theorem Kept.refl (s : WebSocketSession C) : Kept s s := ⟨rfl, rfl, rfl, rfl⟩

theorem callCodec_kept {op : OpCode} {payload : Span}
    {handler : Option (C.State → Io → Span → ω → Option (Status × C.State × Io × ω))}
    (answered : callCodec op handler s io payload w = some (status, s', io', w')) :
    Kept s s' ∧ s'.opcode = s.opcode := by
  unfold callCodec at answered
  cases handler with
  | none =>
      cases answered
      exact ⟨.refl s, rfl⟩
  | some f =>
      obtain ⟨⟨status₁, codec, io₁, w₁⟩, -, same⟩ := Option.map_eq_some_iff.mp answered
      cases same
      exact ⟨⟨rfl, rfl, rfl, rfl⟩, rfl⟩

theorem handleFrame_kept {opcode : OpCode} {payload : Span}
    (answered : handleFrame K s io opcode payload w = some (status, s', io', w')) :
    Kept s s' ∧ s'.opcode = s.opcode := by
  cases opcode with
  | cont | pong | reserved =>
      cases answered
      exact ⟨.refl s, rfl⟩
  | text | binary => exact callCodec_kept answered
  | close =>
      simp only [handleFrame] at answered
      split at answered <;> cases answered <;> exact ⟨.refl s, rfl⟩
  | ping =>
      simp only [handleFrame] at answered
      split at answered
      · cases answered
        exact ⟨.refl s, rfl⟩
      split at answered <;> cases answered <;> exact ⟨.refl s, rfl⟩

/-- Only the first frame of a fragmented message sets the stored opcode. -/
theorem addFragment_kept {frame : FrameView}
    (answered : addFragment K s io frame w = some (status, s', io', w')) :
    Kept s s' ∧ s'.opcode =
      if frame.fin = false ∧ frame.op ≠ .cont ∧ status = .ok then frame.op else s.opcode := by
  unfold addFragment at answered
  split at answered
  · cases answered
    exact ⟨.refl s, by simp⟩
  split at answered
  · cases answered
    exact ⟨.refl s, by simp⟩
  split at answered
  · cases answered
  simp only at answered
  split at answered
  · rename_i finished
    obtain ⟨⟨status₁, s₁, io₁, w₁⟩, called, same⟩ := Option.map_eq_some_iff.mp answered
    cases same
    obtain ⟨⟨host, path, extra, state⟩, opcode⟩ := handleFrame_kept called
    refine ⟨⟨host, path, extra, state⟩, ?_⟩
    rw [if_neg (by simp [finished])]
    exact opcode
  · rename_i open'
    have unfinished : frame.fin = false := by simpa using open'
    split at answered
    · rename_i named
      cases answered
      exact ⟨⟨rfl, rfl, rfl, rfl⟩, by simp [unfinished, named]⟩
    · rename_i unnamed
      cases answered
      exact ⟨⟨rfl, rfl, rfl, rfl⟩, by simp [not_not.mp unnamed]⟩

/-- The stored opcode after a frame at the front of `input` has been answered. -/
def nextOpcode (stored : OpCode) (input : List UInt8) (status : Status) : OpCode :=
  match parseFrame input with
  | .ok out =>
      if out.frame.fin = false ∧ out.frame.op ≠ .cont ∧ status = .ok then out.frame.op else stored
  | _ => stored

theorem dispatchFrame_kept (answered : dispatchFrame K s io w = some (status, s', io', w')) :
    Kept s s' ∧ s'.opcode = nextOpcode s.opcode io.rx.rbuf status := by
  unfold dispatchFrame at answered
  unfold nextOpcode
  cases parsed : parseFrame io.rx.rbuf with
  | ok out =>
      rw [parsed] at answered
      dsimp only at answered ⊢
      split at answered
      · exact addFragment_kept answered
      · rename_i single
        rw [if_neg fun unfinished => single (.inl (by simp [unfinished.1]))]
        exact handleFrame_kept answered
  | needMore | maskedServer | badReserved =>
      rw [parsed] at answered
      cases answered
      exact ⟨.refl s, rfl⟩

/-- Before the upgrade `on_data` says nothing and never answers `close`; it is over when a
response was consumed and found right. -/
theorem onData_sent (sent : s.state = .handshakeSent)
    (answered : onData K s io w = some (status, s', io', w')) :
    io'.tx = io.tx ∧ status ≠ .close ∧
      s' = if io'.rx.rsize ≠ io.rx.rsize ∧ status = .ok then { s with state := .listening } else s := by
  unfold onData at answered
  rw [sent] at answered
  dsimp only at answered
  rcases read : readHandshake s.acceptKey.toList io.rx.rbuf with ⟨answer, consumed⟩
  rw [read] at answered
  cases answered
  refine ⟨rfl, ?_, rfl⟩
  rintro rfl
  exact readHandshake_not_close read

theorem onShutdown_kept (answered : onShutdown K s io w = some (status, s', io', w')) : Kept s s' := by
  simp only [onShutdown, Option.some.injEq, Prod.mk.injEq] at answered
  obtain ⟨-, rfl, -, -⟩ := answered
  split
  · exact .refl s
  · exact ⟨rfl, rfl, rfl, rfl⟩

end WebSocketSession

/-! ## A session to run -/

/-- A random device and a digest of zeros. -/
def zeroCrypto : Crypto ω where
  random w := (0, w)
  sha1 _ := List.replicate 20 0
  sha1_length _ := rfl

/-- A codec that sends every message back as it is, if it fits. -/
def parrot : Codec ω where
  Config := Unit
  State := Unit
  make := id
  onText := some fun st io payload w =>
    if payload.bytes.length ≤ io.tx.wsize then
      some (.ok, st, { io with tx := io.tx.write payload.bytes }, w)
    else some (.error, st, io, w)
  onBinary := some fun st io payload w =>
    if payload.bytes.length ≤ io.tx.wsize then
      some (.ok, st, { io with tx := io.tx.write payload.bytes }, w)
    else some (.error, st, io, w)
  onShutdown := none

/-- The response that the zero digest expects. -/
def zeroResponse : List UInt8 :=
  stringBytes "HTTP/1.1 101 OK\r\nSec-WebSocket-Accept: AAAAAAAAAAAAAAAAAAAAAAAAAAA=\r\n\r\n"

end Manet.Protocol
