/-
# Manet.Reactor.Windows — both buffers stay valid

`Buffer` checks nothing; its positions are right as long as every producer and
consumer stays within the window it was given.  For a transport and a session that
do (`Transport.Layer.Within`, `Protocol.Layer.Within`) validity of both buffers is an
invariant of `Step`, at every call that sees them (`Step.windowed`).

The plain transport does when `net_read` and `net_write` do, and the WebSocket session
does when its codec does: each of its handlers checks the window before it advances,
and what it consumes of a frame is inside the window even where the frame's length
wraps.  So `buffers_sound` holds of every run.  A read is never offered an empty
window: a full buffer ends the connection before the call.
-/
import Manet.Net.Script
import Manet.Protocol.WebSocketSession
import Manet.Reactor.Machine

namespace Manet.Reactor

open Manet.Flow Manet.Net Relation

set_option autoImplicit false

/-- The buffers an act saw and left are valid, and a read was offered a window. -/
def Act.Windowed : Act → Prop
  | .read _ before after => before.Valid ∧ after.Valid ∧ 0 < before.wsize
  | .noReturn (.read offered) => offered.Valid ∧ 0 < offered.wsize
  | .write _ before after => before.Valid ∧ after.Valid
  | .handler _ _ before after => before.Valid ∧ after.Valid
  | .heartbeat before after => before.Valid ∧ after.Valid
  | _ => True

def Windowed (h : History) : Prop := ∀ entry ∈ h, entry.2.Windowed

theorem windowed_cons {s : State} {act : Act} {h : History} :
    Windowed ((s, act) :: h) ↔ act.Windowed ∧ Windowed h := List.forall_mem_cons

/-- An act that sees no buffer. -/
theorem windowed_skip {s : State} {act : Act} {h : History} (blind : act.Windowed = True) :
    Windowed ((s, act) :: h) = Windowed h := by
  rw [windowed_cons.eq, blind, true_and]

section Generic

variable {ω : Type} {N : Backend ω} {T : Transport.Layer ω} {P : Protocol.Layer ω}

structure Buffered (c : Conn T P) : Prop where
  rx : c.rx.Valid
  tx : c.tx.Valid
  past : Windowed c.history

/-- A call that leaves both buffers alone. -/
theorem Buffered.grown {c c' : Conn T P} (buffered : Buffered c) {s : State} {act : Act}
    (rx : c'.rx = c.rx) (tx : c'.tx = c.tx) (history : c'.history = (s, act) :: c.history)
    (saw : act.Windowed) : Buffered c' := by
  refine ⟨rx ▸ buffered.rx, tx ▸ buffered.tx, ?_⟩
  rw [history]
  exact windowed_cons.mpr ⟨saw, buffered.past⟩

theorem Buffered.assigned {c : Conn T P} (buffered : Buffered c) (s : State) :
    Buffered (c.assign s) :=
  buffered.grown rfl rfl rfl trivial

theorem Buffered.torn {c : Conn T P} (buffered : Buffered c) : Buffered (c.teardown N) := by
  refine ⟨?_, ?_, ?_⟩
  · rw [Conn.teardown_rx]; exact buffered.rx
  · rw [Conn.teardown_tx]; exact buffered.tx
  · rw [Conn.teardown_unread N (fun _ _ => windowed_skip rfl) (fun _ _ => windowed_skip rfl)
      fun _ _ _ => windowed_skip rfl]
    exact buffered.past

theorem Buffered.dialed {c : Conn T P} (buffered : Buffered c) :
    Buffered (c.begin.dial N).2 := by
  refine ⟨c.rx.clear_valid, c.tx.clear_valid, ?_⟩
  rw [Conn.dial_unread N (fun _ _ _ => windowed_skip rfl) fun _ _ _ => windowed_skip rfl]
  exact windowed_cons.mpr ⟨trivial, buffered.past⟩

theorem Buffered.notInit {c : Conn T P} (buffered : Buffered c) (w : ω) (held : c.fd ≠ -1) :
    Buffered (c.initFailed N w) := by
  refine ⟨?_, ?_, ?_⟩
  · rw [Conn.initFailed_rx]; exact buffered.rx
  · rw [Conn.initFailed_tx]; exact buffered.tx
  · rw [Conn.initFailed_unread N (fun _ _ => windowed_skip rfl) (fun _ _ _ => windowed_skip rfl)
      w held]
    exact windowed_cons.mpr ⟨trivial, windowed_cons.mpr ⟨trivial, buffered.past⟩⟩

theorem Handles.within {c : Conn T P} {kind : Protocol.HandlerKind}
    {f : Protocol.Handler P.Session ω} (handles : Handles c kind f) (within : P.Within) :
    Protocol.Handler.Within f := by
  cases handles with
  | onConnect declared => exact within.onConnect f declared
  | onData => exact within.onData
  | onShutdown declared => exact within.onShutdown f declared

/-- **No step of the connection leaves a buffer invalid.** -/
theorem Step.buffered {c c' : Conn T P} (step : Step N c c') (transport : T.Within)
    (protocol : P.Within) (buffered : Buffered c) : Buffered c' := by
  cases step with
  | read status e rx w reading room answered =>
      have after := transport.read answered buffered.rx
      have offered := Buffer.wsize_pos buffered.rx room
      exact ⟨after, buffered.tx,
        windowed_cons.mpr ⟨⟨buffered.rx, after, offered⟩, buffered.past⟩⟩
  | write status e tx w flowing held unsent answered =>
      have after := transport.write answered buffered.tx
      exact ⟨buffered.rx, after, windowed_cons.mpr ⟨⟨buffered.tx, after⟩, buffered.past⟩⟩
  | handler kind f status s io w handles answered =>
      have before : Io.Valid ⟨c.rx, c.tx⟩ := ⟨buffered.rx, buffered.tx⟩
      have after := handles.within protocol answered before
      exact ⟨after.rx, after.tx, windowed_cons.mpr ⟨⟨before, after⟩, buffered.past⟩⟩
  | heartbeat f s tx w declared running answered =>
      have after := protocol.heartbeat f declared answered buffered.tx
      exact ⟨buffered.rx, after, windowed_cons.mpr ⟨⟨buffered.tx, after⟩, buffered.past⟩⟩
  | noReturn callee permitted =>
      refine buffered.grown rfl rfl rfl ?_
      cases callee with
      | read offered =>
          obtain ⟨-, rfl, room⟩ := permitted
          exact ⟨buffered.rx, Buffer.wsize_pos buffered.rx room⟩
      | _ => trivial
  | attach k =>
      exact Buffered.dialed (c := { c.log (.enter (.attach k)) with cookie := k })
        (buffered.grown rfl rfl rfl trivial)
  | restart => exact Buffered.dialed (c := c.renew) ⟨buffered.rx, buffered.tx, buffered.past⟩
  | initFailed w fresh held => exact buffered.notInit w held
  | initHandshake e w =>
      have made : Buffered (c.initialised e w) := buffered.grown rfl rfl rfl trivial
      exact made.assigned .transport
  | initPlain e w =>
      have made : Buffered (c.initialised e w) := buffered.grown rfl rfl rfl trivial
      have heard : Buffered ((c.initialised e w).subscribe N true false) :=
        made.grown rfl rfl rfl trivial
      exact heard.assigned .protocol
  | dialPending => exact (buffered.assigned .inProgress).grown rfl rfl rfl trivial
  | refused ret err w =>
      have polled : Buffered (c.polled ret err w) := buffered.grown rfl rfl rfl trivial
      exact (polled.assigned .error).torn
  | overflow =>
      have logged : Buffered (c.log (.overflow c.rx)) := buffered.grown rfl rfl rfl trivial
      exact (logged.assigned .error).torn
  | dropped | fail => exact (buffered.assigned .error).torn
  | finish | stop => exact (buffered.assigned .closed).torn
  | clearRx => exact ⟨c.rx.clear_valid, buffered.tx, buffered.past⟩
  | _ => exact buffered.grown rfl rfl rfl trivial

theorem Buffered.destructed {c : Conn T P} (buffered : Buffered c) :
    Buffered ((c.log (.enter .destruct)).teardown N) := by
  apply Buffered.torn
  exact buffered.grown rfl rfl rfl trivial

theorem make_buffered (host : String) (port : UInt16) (tc : T.Config) (pc : P.Config) (w : ω) :
    Buffered (Conn.make host port tc pc w : Conn T P) :=
  ⟨Buffer.init_valid, Buffer.init_valid, fun _ h => by cases h⟩

/-- **In every run both buffers are valid**, and were at every call that saw them. -/
theorem exec_buffered (transport : T.Within) (protocol : P.Within) (fuel : Nat)
    (entries : List Entry) (host : String) (port : UInt16) (tc : T.Config) (pc : P.Config) (w : ω) :
    Buffered ((exec N fuel entries).exec (Conn.make host port tc pc w : Conn T P)).2 := by
  have reached := exec_reached (N := N) fuel entries
    (make_rest host port tc pc w : Rest (Conn.make host port tc pc w : Conn T P))
  exact reached.invariant (fun _ _ step => step.buffered transport protocol)
    (fun _ => Buffered.destructed) (make_buffered host port tc pc w)

/-- The rule for a run that begins with `attach`, as long as an event does not occur: buffers
are valid and the connection stays attached, so it is enough that the steps keep the invariant
then. -/
theorem attached_invariant (transport : T.Within) (protocol : P.Within)
    {event : State → Act → History → Bool} {inv : Conn T P → Prop}
    (keeps : ∀ c c', Step N c c' → Buffered c → c.cookie ≠ 0 → occurs event c'.history = false →
      inv c → inv c')
    (torn : ∀ c, inv c → inv ((c.log (.enter .destruct)).teardown N)) (fuel : Nat) {k : Nat}
    (attached : k ≠ 0) (later : List Entry) {host : String} {port : UInt16} {tc : T.Config}
    {pc : P.Config} {w : ω}
    (start : inv ((Conn.make host port tc pc w : Conn T P).attached N k)) :
    let c := ((exec N fuel (.attach k :: later)).exec (Conn.make host port tc pc w : Conn T P)).2
    occurs event c.history = false → inv c := by
  intro c
  have reached : Reached N _ later _ c :=
    exec_attach_reached fuel k later (make_rest host port tc pc w) rfl
  let inv' (c : Conn T P) : Prop :=
    c.cookie ≠ 0 ∧ Buffered c ∧ (occurs event c.history = false → inv c)
  have start' : inv' ((Conn.make host port tc pc w : Conn T P).attached N k) := by
    refine ⟨attached, ?_, fun _ => start⟩
    exact Buffered.dialed (c := { (Conn.make host port tc pc w : Conn T P).log (.enter (.attach k)) with
      cookie := k }) ((make_buffered host port tc pc w).grown rfl rfl rfl trivial)
  have keeps' : ∀ c c' : Conn T P, Step N c c' → inv' c → inv' c' := by
    rintro c c' step ⟨cookie, buffered, before⟩
    refine ⟨step.attachedOnce cookie, step.buffered transport protocol buffered, fun never => ?_⟩
    exact keeps c c' step buffered cookie never (before (never_of_suffix step.suffix never))
  have torn' : ∀ c : Conn T P, inv' c → inv' ((c.log (.enter .destruct)).teardown N) := by
    rintro c ⟨cookie, buffered, before⟩
    refine ⟨?_, buffered.destructed, fun never => ?_⟩
    · rw [Conn.teardown_cookie]
      exact cookie
    · exact torn c (before (never_of_suffix (Conn.destruct_suffix N c) never))
  exact (reached.invariant keeps' torn' start').2.2

end Generic

/-! ## WebSocket over the plain transport -/

section WebSocket

variable {ω : Type} {N : Backend ω} {K : Protocol.Crypto ω} {C : Protocol.Codec ω}

/-- The positions of a buffer are in order and inside its array, an empty buffer is
rewound, and both windows are subspans of the array. -/
structure Sound {cap : Nat} (b : Buffer cap) : Prop where
  ordered : b.rpos ≤ b.wpos
  bounded : b.wpos ≤ cap
  rewound : b.rpos = b.wpos → b.rpos = 0 ∧ b.wpos = 0
  rbuf : b.rpos + b.rsize ≤ cap
  wbuf : b.wpos + b.wsize = cap

theorem Buffer.Valid.sound {cap : Nat} {b : Buffer cap} (valid : b.Valid) : Sound b := by
  obtain ⟨ordered, bounded, rewound⟩ := valid
  refine ⟨ordered, bounded, ?_, ?_, ?_⟩
  · intro same
    exact ⟨rewound same, same ▸ rewound same⟩
  · rw [Buffer.rsize_eq ⟨ordered, bounded, rewound⟩]
    omega
  · rw [Buffer.wsize_eq ⟨ordered, bounded, rewound⟩]
    omega

/-- **In every run of a WebSocket connection over the plain transport both buffers
are sound**, and were valid at every call that saw them.  Every read was offered a
window that is not empty. -/
theorem buffers_sound (bounded : Transport.Bounded N) (within : C.Within)
    (indeterminate : Protocol.OpCode) (retries fuel : Nat) (entries : List Entry) (host : String)
    (port : UInt16) (config : Protocol.WebSocketConfig C.Config) (w : ω) :
    let c := ((exec N fuel entries).exec
      (Conn.make host port () config w :
        Conn (Transport.plain N retries) (Protocol.webSocket K C indeterminate))).2
    Sound c.rx ∧ Sound c.tx ∧ Windowed c.history := by
  intro c
  have buffered : Buffered c :=
    exec_buffered (Transport.plain_within bounded retries)
      (Protocol.webSocket_uses K within indeterminate).within fuel entries host port () config w
  exact ⟨buffered.rx.sound, buffered.tx.sound, buffered.past⟩

end WebSocket

theorem scripted_bounded : Transport.Bounded scripted where
  read fd len w bytes answer := by
    simp only [scripted] at answer
    split at answer
    · cases answer
    · cases answer
    · cases answer
      exact List.length_take_le _ _
  write fd bytes w taken answer := by
    simp only [scripted] at answer
    split at answer
    · cases answer
      exact Nat.le_refl _
    · cases answer
    · cases answer
      exact Nat.min_le_right _ _

theorem parrot_within {ω : Type} : (Protocol.parrot : Protocol.Codec ω).Within := by
  have echoes : ∀ {st : Unit} {io : Io} {payload : Protocol.Span} {w : ω} {status st' io' w'},
      (if payload.bytes.length ≤ io.tx.wsize then
        some (Protocol.Status.ok, st, { io with tx := io.tx.write payload.bytes }, w)
      else some (.error, st, io, w)) = some (status, st', io', w') → Io.Uses io io' := by
    intro st io payload w status st' io' w' answered
    split at answered
    · rename_i fits
      cases answered
      exact .store payload.bytes fits (.wrote payload.bytes.length fits (.done _))
    · cases answered
      exact .done _
  refine ⟨?_, ?_⟩
  · rintro f ⟨⟩ st io payload w status st' io' w' answered
    exact echoes answered
  · rintro f ⟨⟩ st io payload w status st' io' w' answered
    exact echoes answered

/-- Bytes to read, nothing else. -/
def arrival : Event := { readable := true, writeable := false, close := false, error := false }

def rootConfig : Protocol.WebSocketConfig Unit := ⟨"/", [], ()⟩

/-- A WebSocket connection over the plain transport and a scripted network. -/
abbrev webSocketConn (script : Script) :
    Conn (Transport.plain scripted 1) (Protocol.webSocket Protocol.zeroCrypto Protocol.parrot .cont) :=
  Conn.make "host" 80 () rootConfig script

/-- The handshake, a message, a ping, and the header of a frame whose length wraps. -/
def wrapping : Script where
  reads := [.ok Protocol.zeroResponse, .ok [0x81, 2, 0x68, 0x69, 0x89, 0],
    .ok [0x8A, 0x7F, 0xFF, 0xFF, 0xFF, 0xFF, 0xFF, 0xFF, 0xFF, 0xFF]]

/-- Nine bytes of the last header are consumed as a frame, one is left. -/
theorem buffers_sound_wrapping :
    let c := ((exec scripted 9 [.attach 1, .handleEvent arrival, .heartbeat]).exec
      (webSocketConn wrapping)).2
    (c.state = .protocol ∧ c.rx.rsize = 1) ∧ Sound c.rx ∧ Sound c.tx ∧ Windowed c.history := by
  constructor
  · decide +kernel
  · unfold webSocketConn
    exact buffers_sound (N := scripted) (K := Protocol.zeroCrypto) (C := Protocol.parrot)
      scripted_bounded parrot_within .cont 1 9 [.attach 1, .handleEvent arrival, .heartbeat]
      "host" 80 rootConfig wrapping

end Manet.Reactor
