/-
# Manet.Reactor.ClosingHandshake — one close frame, and nothing after it

`frameStream` is what a WebSocket connection has queued in its epoch behind the upgrade
request, and `closesOnce` reads it as a server would: at every point of the run it is a
sequence of whole frames in which only the last can be a close.

A close frame is written in two places, the reply to the server's close and
`on_shutdown`, and the connection goes from the one to the other: a handler that answers
`close` is followed by `on_shutdown`.  So it holds of every run in which no close frame is
handed to the session with room for a reply (`closes_once`), and of no run in which the
server closes first and is replied to (`closed_twice`).
-/
import Manet.Protocol.ClientFrames
import Manet.Reactor.Upgrade

namespace Manet.Reactor

open Manet.Flow Manet.Net Manet.Protocol Relation

set_option autoImplicit false

/-- What was queued in this epoch, but for `on_connect`'s request. -/
def frameStream : History → List UInt8
  | [] => []
  | (_, .begin) :: _ => []
  | (_, .handler kind _ before after) :: h =>
      if kind = .onConnect then frameStream h else frameStream h ++ before.tx.appended after.tx
  | (_, .heartbeat before after) :: h => frameStream h ++ before.appended after
  | _ :: h => frameStream h

/-- The stream consists of whole frames, and only the last one may be a close. -/
def lastWord (h : History) : Bool :=
  match opcodes (frameStream h) with
  | some ops => !ops.dropLast.contains .close
  | none => false

/-- At every point of the history. -/
def closesOnce : History → Bool
  | [] => true
  | entry :: h => lastWord (entry :: h) && closesOnce h

/-- The opcode the session has stored of a fragmented message. -/
def stored (indeterminate : OpCode) : History → OpCode
  | [] => indeterminate
  | (_, .begin) :: _ => indeterminate
  | (_, .handler kind status before _) :: h =>
      if kind = .onData ∧ upgraded h = true then
        WebSocketSession.nextOpcode (stored indeterminate h) before.rx.rbuf status
      else stored indeterminate h
  | _ :: h => stored indeterminate h

/-- `on_data` is called on a close frame, and has room for the reply. -/
def bids (indeterminate : OpCode) (_ : State) (act : Act) (h : History) : Bool :=
  match act with
  | .handler .onData _ before _ =>
      upgraded h && 8 ≤ before.tx.wsize && handsClose (stored indeterminate h) before.rx.rbuf
  | _ => false

theorem lastWord_of_same {s : State} {act : Act} {h : History}
    (same : frameStream ((s, act) :: h) = frameStream h) : lastWord ((s, act) :: h) = lastWord h := by
  simp only [lastWord, same]

theorem lastWord_of_closeless {h : History} (closeless : Closeless (frameStream h)) :
    lastWord h = true := by
  obtain ⟨ops, read, none⟩ := closeless
  simp only [lastWord, read, Bool.not_eq_true', List.contains_eq_mem, decide_eq_false_iff_not]
  exact fun member => none (List.dropLast_subset ops member)

section WebSocket

variable {ω : Type} {N : Backend ω} {T : Transport.Layer ω} {K : Crypto ω} {C : Codec ω}
  {indeterminate : OpCode}

structure Partings (c : WsConn T K C indeterminate) : Prop where
  past : closesOnce c.history = true
  now : lastWord c.history = true
  /-- Until the session has said its last word, it has not said close. -/
  closeless : dismissed c.history = false → Closeless (frameStream c.history)
  early : c.state.rank < 3 → upgraded c.history = false
  first : ∀ s, c.history.head? = some (s, .assign .protocol) → upgraded c.history = false
  listens : c.session.state = .listening ↔ upgraded c.history = true
  opcode : c.session.opcode = stored indeterminate c.history
  renewed : (c.newSession : WebSocketSession C).state = .idle ∧
    (c.newSession : WebSocketSession C).opcode = indeterminate

/-- An act that is not the session's. -/
theorem Partings.grown {c c' : WsConn T K C indeterminate} (partings : Partings c)
    {s : State} {act : Act} (history : c'.history = (s, act) :: c.history)
    (state : c'.state.rank < 3 → c.state.rank < 3) (session : c'.session = c.session)
    (newSession : c'.newSession = c.newSession)
    (same : frameStream ((s, act) :: c.history) = frameStream c.history)
    (undone : dismissed ((s, act) :: c.history) = dismissed c.history)
    (level : upgraded ((s, act) :: c.history) = upgraded c.history)
    (code : stored indeterminate ((s, act) :: c.history) = stored indeterminate c.history)
    (other : act ≠ .assign .protocol) : Partings c' := by
  obtain ⟨past, now, closeless, early, first, listens, opcode, renewed⟩ := partings
  have word : lastWord ((s, act) :: c.history) = true := (lastWord_of_same same).trans now
  refine ⟨?_, ?_, ?_, ?_, ?_, ?_, ?_, newSession ▸ renewed⟩ <;> rw [history]
  · simp only [closesOnce, word, past, Bool.and_self]
  · exact word
  · rw [undone, same]
    exact closeless
  · rw [level]
    exact early ∘ state
  · intro s' head
    cases head
    exact absurd rfl other
  · rw [session, level]
    exact listens
  · rw [session, code]
    exact opcode

/-- A handler that leaves whole frames behind, and a close only as its last word. -/
theorem Partings.handled {c : WsConn T K C indeterminate} (partings : Partings c)
    {kind : HandlerKind} {status : Status} {s : WebSocketSession C} {io : Io} {w : ω}
    (polls : c.state.polls = true)
    (word : lastWord (c.handled kind status s io w).history = true)
    (closeless : dismissed (c.handled kind status s io w).history = false →
      Closeless (frameStream (c.handled kind status s io w).history))
    (listens : s.state = .listening ↔ upgraded (c.handled kind status s io w).history = true)
    (opcode : s.opcode = stored indeterminate (c.handled kind status s io w).history) :
    Partings (c.handled kind status s io w) where
  past := by
    have grown : (c.handled kind status s io w).history =
      (c.state, .handler kind status ⟨c.rx, c.tx⟩ io) :: c.history := rfl
    rw [grown] at word ⊢
    simp only [closesOnce, word, partings.past, Bool.and_self]
  now := word
  closeless := closeless
  early early := by
    have later : 2 < (c.handled kind status s io w).state.rank := (State.rank_of_polls polls).1
    omega
  first s head := by cases head
  listens := listens
  opcode := opcode
  renewed := partings.renewed

theorem Partings.connected {c : WsConn T K C indeterminate} (partings : Partings c)
    (polls : c.state.polls = true) {from' : State}
    (first : c.history.head? = some (from', .assign .protocol)) {status : Status}
    {s : WebSocketSession C} {io : Io} {w : ω}
    (answered : WebSocketSession.onConnect K c.session ⟨c.rx, c.tx⟩ c.world =
      some (status, s, io, w)) :
    Partings (c.handled .onConnect status s io w) := by
  have fresh := partings.first from' first
  have session : s.state ≠ .listening ∧ s.opcode = c.session.opcode := by
    simp only [WebSocketSession.onConnect] at answered
    split at answered
    · cases answered
      exact ⟨fun listening => Bool.false_ne_true (fresh.symm.trans (partings.listens.mp listening)), rfl⟩
    · cases answered
      exact ⟨by simp, rfl⟩
  refine partings.handled polls ?_ (fun undone => ?_) ?_ ?_
  · exact (lastWord_of_same rfl).trans partings.now
  · refine partings.closeless ?_
    simp only [Conn.handled, Conn.log, dismissed, Bool.or_eq_false_iff] at undone
    exact undone.2
  · simp [Conn.handled, Conn.log, upgraded, session.1, fresh]
  · rw [session.2, partings.opcode]
    simp [Conn.handled, Conn.log, stored]

/-- `on_data` leaves whole frames without a close, unless it is handed one and can reply. -/
theorem Partings.received {c : WsConn T K C indeterminate} (partings : Partings c)
    (buffered : Buffered c) (never' : C.NeverCloses) (running : c.state = .protocol)
    (staying : leaving c.history = false) {status : Status} {s : WebSocketSession C} {io : Io} {w : ω}
    (never : bids indeterminate c.state (.handler .onData status ⟨c.rx, c.tx⟩ io) c.history = false)
    (answered : WebSocketSession.onData K c.session ⟨c.rx, c.tx⟩ c.world = some (status, s, io, w)) :
    Partings (c.handled .onData status s io w) := by
  have before := partings.closeless (dismissed_of_leaving staying)
  have after : Closeless (c.tx.appended io.tx) →
      Closeless (frameStream (c.handled .onData status s io w).history) := before.append
  have polls : c.state.polls = true := by rw [running]; rfl
  cases state : c.session.state with
  | listening =>
      have already := partings.listens.mp state
      unfold WebSocketSession.onData at answered
      rw [state] at answered
      obtain ⟨kept, next⟩ := WebSocketSession.dispatchFrame_kept answered
      have whole : Closeless (c.tx.appended io.tx) := by
        refine WebSocketSession.dispatchFrame_closeless never' ⟨buffered.rx, buffered.tx⟩ ?_ answered
        intro close
        rw [partings.opcode] at close
        simpa [bids, already, close] using never
      refine partings.handled polls (lastWord_of_closeless (after whole)) (fun _ => after whole) ?_ ?_
      · simp [Conn.handled, Conn.log, upgraded, already, kept.state, state]
      · rw [next, partings.opcode]
        simp [Conn.handled, Conn.log, stored, already]
  | handshakeSent =>
      have waiting : upgraded c.history = false := by
        rw [Bool.eq_false_iff, ne_eq, ← partings.listens, state]
        simp
      obtain ⟨unsaid, -, next⟩ := WebSocketSession.onData_sent state answered
      have whole : Closeless (c.tx.appended io.tx) := by
        rw [unsaid, Buffer.appended_self]
        exact closeless_nil
      refine partings.handled polls (lastWord_of_closeless (after whole)) (fun _ => after whole) ?_ ?_
      · have accepted : upgraded (c.handled .onData status s io w).history = true ↔
            io.rx.rsize ≠ c.rx.rsize ∧ status = .ok := by
          simp [Conn.handled, Conn.log, upgraded, waiting, and_comm]
        rw [accepted, next]
        split
        · rename_i consumed
          exact ⟨fun _ => consumed, fun _ => rfl⟩
        · rename_i waits
          rw [state]
          exact ⟨fun listening => (by cases listening), fun consumed => absurd consumed waits⟩
      · have same : s.opcode = c.session.opcode := by
          rw [next]
          split <;> rfl
        rw [same, partings.opcode]
        simp [Conn.handled, Conn.log, stored, waiting]
  | idle =>
      have waiting : upgraded c.history = false := by
        rw [Bool.eq_false_iff, ne_eq, ← partings.listens, state]
        simp
      unfold WebSocketSession.onData at answered
      rw [state] at answered
      cases answered
      have whole : Closeless (c.tx.appended c.tx) := by
        rw [Buffer.appended_self]
        exact closeless_nil
      refine partings.handled polls (lastWord_of_closeless (after whole)) (fun _ => after whole) ?_ ?_
      · simp [Conn.handled, Conn.log, upgraded, waiting, state]
      · rw [partings.opcode]
        simp [Conn.handled, Conn.log, stored, waiting]

/-- `on_shutdown` has the last word. -/
theorem Partings.shutDown {c : WsConn T K C indeterminate} (partings : Partings c)
    (buffered : Buffered c) (closing : c.state = .closeProtocol)
    (undone : dismissed c.history = false) {status : Status} {s : WebSocketSession C} {io : Io} {w : ω}
    (answered : WebSocketSession.onShutdown K c.session ⟨c.rx, c.tx⟩ c.world =
      some (status, s, io, w)) :
    Partings (c.handled .onShutdown status s io w) := by
  obtain ⟨spoken, opcode, said⟩ := WebSocketSession.onShutdown_closes buffered.tx answered
  obtain ⟨ops, read, none⟩ := partings.closeless undone
  refine partings.handled (by rw [closing]; rfl) ?_ (fun undone' => ?_) ?_ ?_
  · have stream : frameStream (c.handled .onShutdown status s io w).history =
      frameStream c.history ++ c.tx.appended io.tx := rfl
    rcases said with silent | close
    · simp [lastWord, stream, opcodes_append read silent]
      exact fun member => none (List.dropLast_subset ops member)
    · simpa [lastWord, stream, opcodes_append read close] using none
  · cases status with
    | ok => exact absurd rfl spoken
    | close | error => simp [Conn.handled, Conn.log, dismissed] at undone'
  · rw [(WebSocketSession.onShutdown_kept answered).state, partings.listens]
    simp [Conn.handled, Conn.log, upgraded]
  · rw [opcode, partings.opcode]
    simp [Conn.handled, Conn.log, stored]

theorem Partings.beaten {c : WsConn T K C indeterminate} (partings : Partings c)
    (staying : leaving c.history = false) {s : WebSocketSession C} {tx : Buffer TX_CAP} {w : ω}
    (same : s = c.session) (whole : Closeless (c.tx.appended tx)) : Partings (c.beaten s tx w) := by
  subst same
  have after : Closeless (frameStream ((c.state, .heartbeat c.tx tx) :: c.history)) :=
    (partings.closeless (dismissed_of_leaving staying)).append whole
  have word := lastWord_of_closeless after
  refine ⟨?_, word, fun _ => after, partings.early, fun s head => (by cases head), partings.listens,
    partings.opcode, partings.renewed⟩
  simp only [Conn.beaten, Conn.log, closesOnce, word, partings.past, Bool.and_self]

theorem Partings.released {c : WsConn T K C indeterminate} (partings : Partings c) :
    Partings (c.release N) := by
  have cleared : Partings (c.log (.net (.clear c.fd))) :=
    partings.grown rfl id rfl rfl rfl rfl rfl rfl (by simp)
  exact cleared.grown rfl id rfl rfl rfl rfl rfl rfl (by simp)

theorem Partings.torn {c : WsConn T K C indeterminate} (partings : Partings c) :
    Partings (c.teardown N) := by
  by_cases held : c.fd = -1
  · rw [Conn.teardown_idle N held]
    exact partings
  · have destroyed : Partings c.endpointDestroy :=
      partings.grown rfl id rfl rfl rfl rfl rfl rfl (by simp)
    have released : c.teardown N = c.endpointDestroy.release N := if_pos held
    rw [released]
    exact destroyed.released

/-- An assignment of any state but `protocol`. -/
theorem Partings.assigned {c : WsConn T K C indeterminate} (partings : Partings c) {s : State}
    (early : s.rank < 3 → c.state.rank < 3) (other : s ≠ .protocol) : Partings (c.assign s) :=
  partings.grown rfl early rfl rfl rfl rfl rfl rfl (by simpa using other)

theorem Partings.begun {c : WsConn T K C indeterminate} (partings : Partings c)
    (early : c.state.rank < 3) : Partings (c.assign .protocol) where
  past := by
    have word : lastWord ((c.state, .assign .protocol) :: c.history) = true :=
      (lastWord_of_same rfl).trans partings.now
    simp only [Conn.assign, Conn.log, closesOnce, word, partings.past, Bool.and_self]
  now := (lastWord_of_same rfl).trans partings.now
  closeless := partings.closeless
  early := partings.early ∘ fun _ => early
  first _ _ := partings.early early
  listens := partings.listens
  opcode := partings.opcode
  renewed := partings.renewed

theorem Partings.dialed {c : WsConn T K C indeterminate} (partings : Partings c) :
    Partings (c.renew.begin.dial N).2 := by
  have words : ∀ s act (h : History), frameStream ((s, act) :: h) = frameStream h →
      (lastWord ((s, act) :: h) && closesOnce ((s, act) :: h)) = (lastWord h && closesOnce h) := by
    intro s act h same
    simp only [closesOnce, lastWord_of_same same, Bool.and_self_left]
  have dialed : (lastWord (c.renew.begin.dial N).2.history &&
      closesOnce (c.renew.begin.dial N).2.history) = closesOnce c.history :=
    Conn.dial_unread N (f := fun h => lastWord h && closesOnce h) (fun s call h => words s _ h rfl)
      (fun s fd h => words s _ h rfl) c.renew.begin
  rw [partings.past, Bool.and_eq_true] at dialed
  have silent : frameStream (c.renew.begin.dial N).2.history = [] :=
    Conn.dial_unread N (fun _ _ _ => rfl) (fun _ _ _ => rfl) c.renew.begin
  have fresh : upgraded (c.renew.begin.dial N).2.history = false :=
    Conn.dial_unread N (fun _ _ _ => rfl) (fun _ _ _ => rfl) c.renew.begin
  have code : stored indeterminate (c.renew.begin.dial N).2.history = indeterminate :=
    Conn.dial_unread N (fun _ _ _ => rfl) (fun _ _ _ => rfl) c.renew.begin
  refine ⟨dialed.2, dialed.1, fun _ => ?_, fun _ => fresh, fun s head => ?_, ?_, ?_,
    partings.renewed⟩
  · rw [silent]
    exact closeless_nil
  · cases head
  · rw [fresh]
    exact ⟨fun listening => absurd (partings.renewed.1.symm.trans listening) (by simp),
      fun h => (by cases h)⟩
  · rw [code]
    exact partings.renewed.2

theorem Step.partings {c c' : WsConn T K C indeterminate} (step : Step N c c') (buffered : Buffered c)
    (codec : C.NeverCloses) (cookie : c.cookie ≠ 0)
    (never : occurs (bids indeterminate) c'.history = false) (partings : Partings c) :
    Partings c' := by
  have failed : ∀ {c : WsConn T K C indeterminate}, Partings c → Partings (c.enterError N) :=
    fun p => (p.assigned (s := .error) (by simp [State.rank]) (by simp)).torn
  have closed : Partings (c.enterClosed N) :=
    (partings.assigned (s := .closed) (by simp [State.rank]) (by simp)).torn
  have early : c.state = .uninitialized ∨ c.state = .inProgress → c.state.rank < 3 := by
    rintro (state | state) <;> rw [state] <;> decide
  cases step with
  | attach k unattached => exact absurd unattached cookie
  | restart => exact partings.dialed
  | dialFailed | closeProtocol | drainProtocol | closeTransport =>
      exact partings.assigned (by simp [State.rank]) (by simp)
  | dialPending fresh =>
      have pending : Partings (c.assign .inProgress) :=
        partings.assigned (fun _ => early (.inl fresh)) (by simp)
      exact pending.grown rfl id rfl rfl rfl rfl rfl rfl (by simp)
  | initFailed w fresh held =>
      have tried : Partings (c.notInitialised w) :=
        partings.grown rfl id rfl rfl rfl rfl rfl rfl (by simp)
      have released : c.initFailed N w = ((c.notInitialised w).assign .error).release N :=
        if_pos held
      rw [released]
      exact (tried.assigned (by simp [State.rank]) (by simp)).released
  | initHandshake e w fresh =>
      have made : Partings (c.initialised e w) :=
        partings.grown rfl id rfl rfl rfl rfl rfl rfl (by simp)
      exact made.assigned (fun _ => early fresh) (by simp)
  | initPlain e w fresh =>
      have made : Partings (c.initialised e w) :=
        partings.grown rfl id rfl rfl rfl rfl rfl rfl (by simp)
      have heard : Partings ((c.initialised e w).subscribe N true false) :=
        made.grown rfl id rfl rfl rfl rfl rfl rfl (by simp)
      exact heard.begun (early fresh)
  | refused ret err w =>
      have polled : Partings (c.polled ret err w) :=
        partings.grown rfl id rfl rfl rfl rfl rfl rfl (by simp)
      exact failed polled
  | overflow =>
      have logged : Partings (c.log (.overflow c.rx)) :=
        partings.grown rfl id rfl rfl rfl rfl rfl rfl (by simp)
      exact failed logged
  | dropped | fail => exact failed partings
  | finish | stop => exact closed
  | enterProtocol shaking => exact partings.begun (by rw [shaking]; decide)
  | handler kind f status s io w handles answered =>
      cases handles with
      | onConnect declared running first =>
          rw [← Option.some.inj declared] at answered
          exact partings.connected (by rw [running]; rfl) first answered
      | onData running _ staying =>
          exact partings.received buffered codec running staying
            (not_event_of_never List.suffix_rfl never) answered
      | onShutdown declared closing undone =>
          rw [← Option.some.inj declared] at answered
          exact partings.shutDown buffered closing undone answered
  | heartbeat f s tx w declared running answered attentive =>
      rw [← Option.some.inj declared] at answered
      obtain ⟨same, whole⟩ := WebSocketSession.heartbeat_closeless buffered.tx answered
      exact partings.beaten (attentive.staying running) same whole
  | clearRx => exact { partings with }
  | _ => exact partings.grown rfl id rfl rfl rfl rfl rfl rfl (by simp)

/-- **One close frame, and no frame after it**: at every point of every run of an attached
WebSocket connection whose codec writes whole frames and none of them a close, if the session
is never handed a close frame with room for the reply. -/
theorem closes_once (transport : T.Within) (within : C.Within) (codec : C.NeverCloses) (fuel k : Nat)
    (attached : k ≠ 0) (later : List Entry) (host : String) (port : UInt16) (tc : T.Config)
    (config : WebSocketConfig C.Config) (w : ω) :
    let c := ((exec N fuel (.attach k :: later)).exec
      (Conn.make host port tc config w : WsConn T K C indeterminate)).2
    occurs (bids indeterminate) c.history = false → closesOnce c.history = true := by
  have made : Partings (Conn.make host port tc config w : WsConn T K C indeterminate) :=
    ⟨rfl, rfl, fun _ => closeless_nil, fun _ => rfl, fun _ h => (by cases h),
      ⟨fun h => (by cases h), fun h => (by cases h)⟩, rfl, ⟨rfl, rfl⟩⟩
  have entered : Partings
      { (Conn.make host port tc config w : WsConn T K C indeterminate).log (.enter (.attach k)) with
        cookie := k } := made.grown rfl id rfl rfl rfl rfl rfl rfl (by simp)
  intro c never
  refine (attached_invariant transport (webSocket_uses K within indeterminate).within
    (fun _ _ step buffered => step.partings buffered codec) (fun last partings => ?_) fuel attached
    later entered.dialed never).past
  have logged : Partings (last.log (.enter .destruct)) :=
    partings.grown rfl id rfl rfl rfl rfl rfl rfl (by simp)
  exact logged.torn

end WebSocket

/-- A codec that answers every text with an empty one, if there is room. -/
def nodding {ω : Type} : Codec ω where
  Config := Unit
  State := Unit
  make := id
  onText := some fun st io _ w =>
    if 6 ≤ io.tx.wsize then
      some (.ok, st, { io with tx := io.tx.write [0x81, 0x80, 0, 0, 0, 0] }, w)
    else some (.error, st, io, w)
  onBinary := none
  onShutdown := none

theorem nodding_within {ω : Type} : (nodding : Codec ω).Within where
  onText := by
    rintro f ⟨⟩ st io payload w status st' io' w' answered
    simp only at answered
    split at answered
    · rename_i fits
      cases answered
      exact Io.uses_write fits
    · cases answered
      exact .done _
  onBinary f declared := by cases declared

theorem nodding_neverCloses {ω : Type} : (nodding : Codec ω).NeverCloses where
  onText := by
    rintro f ⟨⟩ st io payload w status st' io' w' answered valid
    simp only at answered
    split at answered
    · rename_i fits
      cases answered
      have queued : io.tx.appended (io.tx.write [0x81, 0x80, 0, 0, 0, 0]) = _ :=
        Buffer.appended_write tx_small valid.tx fits
      rw [queued]
      exact ⟨[.text], by decide, by decide⟩
    · cases answered
      rw [Buffer.appended_self]
      exact closeless_nil
  onBinary f declared := by cases declared

abbrev noddingConn (script : Script) :
    Conn (Transport.plain scripted 1) (webSocket zeroCrypto nodding .cont) :=
  Conn.make "host" 80 () rootConfig script

/-- The handshake, a text and a ping. -/
def chatter : Script where
  reads := [.ok zeroResponse, .ok [0x81, 2, 0x68, 0x69, 0x89, 0]]

/-- A text is answered, a ping is answered, a heartbeat, and the connection is stopped. -/
theorem closes_once_stopped :
    let c := ((exec scripted 9 [.attach 1, .handleEvent arrival, .heartbeat, .stop]).exec
      (noddingConn chatter)).2
    opcodes (frameStream c.history) = some [.text, .pong, .ping, .close] ∧
      closesOnce c.history = true := by
  constructor
  · decide +kernel
  · unfold noddingConn
    exact closes_once (Transport.plain_within scripted_bounded 1) nodding_within nodding_neverCloses
      9 1 (by decide) [.handleEvent arrival, .heartbeat, .stop] "host" 80 () rootConfig chatter
      (by decide +kernel)

/-- The server closes: the close is replied to, and the session shuts down with another. -/
theorem closed_twice :
    let c := ((exec scripted 9 [.attach 1, .handleEvent arrival]).exec
      (noddingConn { reads := [.ok zeroResponse, .ok [0x88, 0]] })).2
    opcodes (frameStream c.history) = some [.close, .close] ∧ closesOnce c.history = false := by
  decide +kernel

end Manet.Reactor
