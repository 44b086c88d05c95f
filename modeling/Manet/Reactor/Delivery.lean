/-
# Manet.Reactor.Delivery — messages reach the codec

A WebSocket connection, end to end: a server's stream on one side of a transport, a codec on the
other side of a session, and in between a reactor that reads and writes when it is told to.  As
long as what the transport hands over is a beginning of what the server sent in this connection,
what the codec has been given is a beginning of what the server meant; and whenever the calls
have returned and the connection is running, it is everything that has arrived
(`messages_reach_codec`).  Nothing is asked of the schedule, of the sizes of reads and writes, of
the heartbeats or of earlier epochs.

The bytes are those of `Manet.Reactor.Conservation`, one call of the session is `onData_hears`;
what is left is that the session is called when it should be: first `on_connect`, then `on_data`
until it waits, which the history tells (`owed`).
-/
import Manet.Protocol.ServerStream
import Manet.Reactor.Conservation
import Manet.Reactor.Upgrade

namespace Manet.Reactor

open Manet.Flow Manet.Net Manet.Protocol Relation

set_option autoImplicit false

variable {ω : Type} {N : Backend ω} {T : Transport.Layer ω} {K : Crypto ω} {C : Codec ω}
  {indeterminate : OpCode}

/-- What has been received in this epoch is a beginning of the stream, whose response answers the
session's request. -/
structure Receives (st : ServerStream) (c : WsConn T K C indeterminate) : Prop where
  answers : st.Answers c.session
  received : (ledger c.history).received <+: st.bytes

/-- The session has heard what the handlers have consumed, and between calls it waits. -/
structure Hearing (st : ServerStream) (c : WsConn T K C indeterminate) : Prop where
  genuine : c.session.callbacks <+: st.allCalls C
  consumed : leaving c.history = false → Hears st c.session (ledger c.history).consumed
  settled : c.state = .protocol → leaving c.history = false → owed true c.history = false →
    Waits c.session c.rx.rbuf

structure Attended (c : WsConn T K C indeterminate) : Prop where
  early : c.state.rank < 3 → c.session.state = .idle
  /-- `on_connect` finds a session that has not heard anything. -/
  first : c.state = .protocol → ∀ s, c.history.head? = some (s, .assign .protocol) →
    c.session.state = .idle
  idle : c.session.state = .idle → c.state = .protocol → leaving c.history = false →
    owed true c.history = true ∧ (ledger c.history).received = []
  waiting : c.session.state ≠ .listening → c.session.callbacks = [] ∧ c.session.msg = [] ∧
    (leaving c.history = false → (ledger c.history).consumed = [])
  hears : ∀ st, Receives st c → Hearing st c

/-- The same, as far as reading is concerned. -/
structure SameEar (s s' : WebSocketSession C) : Prop where
  state : s'.state = s.state
  msg : s'.msg = s.msg
  opcode : s'.opcode = s.opcode
  acceptKey : s'.acceptKey = s.acceptKey
  callbacks : s'.callbacks = s.callbacks

theorem SameEar.refl (s : WebSocketSession C) : SameEar s s := ⟨rfl, rfl, rfl, rfl, rfl⟩

theorem SameEar.hears {s s' : WebSocketSession C} (same : SameEar s s') {st : ServerStream}
    {heard : List UInt8} (hears : Hears st s heard) : Hears st s' heard := by
  cases hears with
  | waiting early silent empty =>
      exact .waiting (same.state ▸ early) (same.callbacks.trans silent) (same.msg.trans empty)
  | listening inside meaning assembling given =>
      refine .listening inside meaning ?_ (same.callbacks.trans given)
      refine ⟨same.state.trans assembling.listening, same.msg.trans assembling.bytes, ?_,
        assembling.data, ?_⟩
      · intro m held
        exact same.opcode.trans (assembling.opcode m held)
      · rw [same.msg]
        exact assembling.small

theorem SameEar.waits {s s' : WebSocketSession C} (same : SameEar s s') {unread : List UInt8}
    (waits : Waits s unread) : Waits s' unread := by
  unfold Waits at waits ⊢
  rw [same.state, same.acceptKey]
  exact waits

/-- A step that does not feed the session, and is not the entry to `protocol`. -/
theorem Attended.moved {c c' : WsConn T K C indeterminate} (attended : Attended c)
    (session : SameEar c.session c'.session)
    (consumed : (ledger c'.history).consumed = (ledger c.history).consumed)
    (received : (ledger c'.history).received = (ledger c.history).received)
    (stays : leaving c'.history = false → leaving c.history = false)
    (early : c'.state.rank < 3 → c.state.rank < 3)
    (fed : c'.state = .protocol → c.state = .protocol ∧ c'.rx = c.rx ∧
      owed true c'.history = owed true c.history ∧
      ∀ s, c'.history.head? = some (s, .assign .protocol) →
        c.history.head? = some (s, .assign .protocol)) : Attended c' where
  early young := session.state.trans (attended.early (early young))
  first running s entered :=
    session.state.trans (attended.first (fed running).1 s ((fed running).2.2.2 s entered))
  idle idle running staying := by
    obtain ⟨due, none⟩ := attended.idle (session.state ▸ idle) (fed running).1 (stays staying)
    rw [(fed running).2.2.1, received]
    exact ⟨due, none⟩
  waiting other := by
    obtain ⟨silent, empty, none⟩ := attended.waiting (session.state ▸ other)
    refine ⟨session.callbacks.trans silent, session.msg.trans empty, fun staying => ?_⟩
    rw [consumed]
    exact none (stays staying)
  hears st receives := by
    have before : Receives st c := by
      refine ⟨?_, received ▸ receives.received⟩
      have answers := receives.answers
      unfold ServerStream.Answers at answers ⊢
      rwa [session.acceptKey] at answers
    obtain ⟨genuine, heard, settled⟩ := attended.hears st before
    refine ⟨session.callbacks ▸ genuine, fun staying => ?_, fun running staying idle => ?_⟩
    · rw [consumed]
      exact session.hears (heard (stays staying))
    · obtain ⟨before, rx, due, -⟩ := fed running
      rw [rx]
      exact session.waits (settled before (stays staying) (due ▸ idle))

/-- An act that is none of the session's. -/
theorem Attended.grown {c c' : WsConn T K C indeterminate} (attended : Attended c) {s : State}
    {act : Act} (history : c'.history = (s, act) :: c.history) (state : c'.state = c.state)
    (session : SameEar c.session c'.session) (rx : c'.rx = c.rx)
    (consumed : (ledger ((s, act) :: c.history)).consumed = (ledger c.history).consumed)
    (received : (ledger ((s, act) :: c.history)).received = (ledger c.history).received)
    (stays : leaving ((s, act) :: c.history) = false → leaving c.history = false)
    (due : owed true ((s, act) :: c.history) = owed true c.history)
    (other : act ≠ .assign .protocol) : Attended c' := by
  refine attended.moved session ?_ ?_ ?_ ?_ fun running => ⟨?_, rx, ?_, ?_⟩
  · rw [history]
    exact consumed
  · rw [history]
    exact received
  · rw [history]
    exact stays
  · rw [state]
    exact id
  · rw [← state]
    exact running
  · rw [history]
    exact due
  · intro s' entered
    rw [history] at entered
    cases entered
    exact absurd rfl other

/-- An assignment to a state in which nothing is due to the session. -/
theorem Attended.assigned {c : WsConn T K C indeterminate} (attended : Attended c) {s : State}
    (other : s ≠ .protocol) (early : s.rank < 3 → c.state.rank < 3) : Attended (c.assign s) :=
  attended.moved (.refl _) rfl rfl id early fun running => absurd running other

theorem Attended.torn {c : WsConn T K C indeterminate} (attended : Attended c)
    (other : c.state ≠ .protocol) : Attended (c.teardown N) := by
  have books : ledger (c.teardown N).history = ledger c.history :=
    Conn.teardown_unread N (fun _ _ => rfl) (fun _ _ => rfl) (fun _ _ _ => rfl) c
  have session : (c.teardown N).session = c.session := by
    unfold Conn.teardown
    split <;> rfl
  refine attended.moved (session ▸ .refl _) (by rw [books]) (by rw [books]) ?_ ?_ ?_
  · rw [Conn.teardown_unread N leaving_skips.teardown leaving_skips.destroy leaving_skips.net]
    exact id
  · rw [Conn.teardown_state]
    exact id
  · rw [Conn.teardown_state]
    exact fun running => absurd running other

theorem Attended.failed {c : WsConn T K C indeterminate} (attended : Attended c) :
    Attended (c.enterError N) :=
  (attended.assigned (s := .error) (by simp) fun early => absurd early (by decide)).torn (by simp [Conn.assign])

/-- A new session, on a new connection. -/
theorem attended_dialed {c : WsConn T K C indeterminate} (idle : c.session.state = .idle)
    (silent : c.session.callbacks = []) (empty : c.session.msg = []) :
    Attended (c.begin.dial N).2 := by
  have books : ledger (c.begin.dial N).2.history = {} :=
    Conn.dial_unread N (fun _ _ _ => rfl) (fun _ _ _ => rfl) c.begin
  have session : (c.begin.dial N).2.session = c.session := rfl
  refine ⟨fun _ => idle, nofun, nofun, fun _ => ⟨silent, empty, fun _ => ?_⟩, fun st _ => ⟨?_, fun _ => ?_, nofun⟩⟩
  · rw [books]
  · rw [session, silent]
    exact List.nil_prefix
  · rw [books]
    exact .waiting (by rw [session, idle]; simp) silent empty

/-- `protocol` is entered: `on_connect` is due, and nothing has been received. -/
theorem Attended.begun {c : WsConn T K C indeterminate} (attended : Attended c)
    (early : c.state.rank < 3) (fresh : (ledger c.history).received = []) :
    Attended (c.assign .protocol) where
  early young := absurd young (by simp [Conn.assign, State.rank])
  first _ _ _ := attended.early early
  idle _ _ _ := ⟨rfl, fresh⟩
  waiting := attended.waiting
  hears st receives := by
    obtain ⟨genuine, heard, -⟩ := attended.hears st ⟨receives.answers, receives.received⟩
    exact ⟨genuine, heard, fun _ _ due => by cases due⟩

/-- What a handler leaves, given what it makes of the session. -/
theorem Attended.handled {c : WsConn T K C indeterminate} (fed : c.state.polls = true)
    {kind : HandlerKind} {status : Status} {s : WebSocketSession C} {io : Io} {w : ω}
    (connected : status = .ok → leaving c.history = false → c.state = .protocol → s.state ≠ .idle)
    (waiting : s.state ≠ .listening → s.callbacks = [] ∧ s.msg = [] ∧
      (status = .ok → leaving c.history = false →
        (ledger c.history).consumed ++ c.rx.removed io.rx = []))
    (hears : ∀ st : ServerStream, st.Answers s → (ledger c.history).received <+: st.bytes →
      s.callbacks <+: st.allCalls C ∧ (status = .ok → leaving c.history = false →
        Hears st s ((ledger c.history).consumed ++ c.rx.removed io.rx) ∧
          (c.state = .protocol → owed true (c.handled kind status s io w).history = false →
            Waits s io.rx.rbuf))) :
    Attended (c.handled kind status s io w) := by
  have stays : leaving (c.handled kind status s io w).history = false →
      status = .ok ∧ leaving c.history = false := by
    intro staying
    simpa [Conn.handled, Conn.log, leaving] using staying
  have late : ¬ c.state.rank < 3 := by
    have := (State.rank_of_polls fed).1
    omega
  refine ⟨fun young => absurd young late, fun _ _ entered => ?_, fun idle running staying => ?_,
    fun other => ?_, fun st receives => ?_⟩
  · cases entered
  · obtain ⟨ok, staying⟩ := stays staying
    exact absurd idle (connected ok staying running)
  · obtain ⟨silent, empty, none⟩ := waiting other
    exact ⟨silent, empty, fun staying => none (stays staying).1 (stays staying).2⟩
  · obtain ⟨genuine, heard⟩ := hears st receives.answers receives.received
    refine ⟨genuine, fun staying => ?_, fun running staying idle => ?_⟩
    · exact (heard (stays staying).1 (stays staying).2).1
    · exact (heard (stays staying).1 (stays staying).2).2 running idle

/-- `on_connect` asks for the upgrade, and hears nothing. -/
theorem Attended.connected {c : WsConn T K C indeterminate} (attended : Attended c)
    (balanced : Balanced c) (running : c.state = .protocol) {s₀ : State}
    (entered : c.history.head? = some (s₀, .assign .protocol)) {status : Status}
    {s : WebSocketSession C} {io : Io} {w : ω}
    (answered : WebSocketSession.onConnect K c.session ⟨c.rx, c.tx⟩ c.world =
      some (status, s, io, w)) :
    Attended (c.handled .onConnect status s io w) := by
  have fed : c.state.polls = true := by rw [running]; rfl
  have idle := attended.first running s₀ entered
  obtain ⟨silent, empty, -⟩ := attended.waiting (by rw [idle]; simp)
  simp only [WebSocketSession.onConnect] at answered
  split at answered
  · -- no room for the request
    cases answered
    have failed : Protocol.Status.error ≠ .ok := by decide
    refine Attended.handled fed (fun ok => absurd ok failed)
      (fun _ => ⟨silent, empty, fun ok => absurd ok failed⟩)
      fun st _ _ => ⟨?_, fun ok => absurd ok failed⟩
    rw [silent]
    exact List.nil_prefix
  · cases answered
    have nothing : leaving c.history = false →
        (ledger c.history).consumed = [] ∧ c.rx.rbuf = [] := by
      intro staying
      have none := balanced.input (by rw [running]; decide)
      rw [(attended.idle idle running staying).2] at none
      exact List.append_eq_nil_iff.mp none
    have untouched : c.rx.removed c.rx = [] := by simp [Buffer.removed]
    refine Attended.handled fed (fun _ _ _ => by simp) (fun _ => ⟨silent, empty, fun _ staying => ?_⟩)
      fun st _ _ => ⟨?_, fun _ staying => ⟨?_, fun _ _ => ?_⟩⟩
    · rw [untouched, (nothing staying).1]
      rfl
    · dsimp only
      rw [silent]
      exact List.nil_prefix
    · rw [untouched, (nothing staying).1]
      exact .waiting (by simp) silent empty
    · dsimp only
      rw [(nothing staying).2]
      exact waits_nil (by simp)

theorem onData_connected {s s' : WebSocketSession C} {io io' : Io} {w w' : ω}
    (answered : WebSocketSession.onData K s io w = some (.ok, s', io', w')) : s'.state ≠ .idle := by
  cases state : s.state with
  | idle =>
      unfold WebSocketSession.onData at answered
      rw [state] at answered
      cases answered
  | handshakeSent =>
      obtain ⟨-, -, next⟩ := WebSocketSession.onData_sent state answered
      rw [next]
      split
      · simp
      · rw [state]
        simp
  | listening =>
      unfold WebSocketSession.onData at answered
      rw [state] at answered
      rw [(WebSocketSession.dispatchFrame_kept answered).1.state, state]
      simp

/-- `on_data` takes the next unit of the stream, or waits. -/
theorem Attended.received {c : WsConn T K C indeterminate} (attended : Attended c)
    (text : LeavesRx C.onText) (binary : LeavesRx C.onBinary) (buffered : Buffered c)
    (balanced : Balanced c) (running : c.state = .protocol) (staying : leaving c.history = false)
    {status : Status} {s : WebSocketSession C} {io : Io} {w : ω}
    (answered : WebSocketSession.onData K c.session ⟨c.rx, c.tx⟩ c.world =
      some (status, s, io, w)) :
    Attended (c.handled .onData status s io w) := by
  have fed : c.state.polls = true := by rw [running]; rfl
  have books := balanced.input (by rw [running]; decide)
  refine Attended.handled fed (fun ok _ _ => ?_) (fun other => ?_) fun st answers fits => ?_
  · subst ok
    exact onData_connected answered
  · cases state : c.session.state with
    | listening =>
        unfold WebSocketSession.onData at answered
        rw [state] at answered
        exact absurd ((WebSocketSession.dispatchFrame_kept answered).1.state.trans state) other
    | idle =>
        obtain ⟨silent, empty, -⟩ := attended.waiting (by rw [state]; simp)
        unfold WebSocketSession.onData at answered
        rw [state] at answered
        cases answered
        exact ⟨silent, empty, nofun⟩
    | handshakeSent =>
        obtain ⟨silent, empty, none⟩ := attended.waiting (by rw [state]; simp)
        obtain ⟨-, -, next⟩ := WebSocketSession.onData_sent state answered
        by_cases accepted : io.rx.rsize ≠ c.rx.rsize ∧ status = .ok
        · rw [next, if_pos accepted] at other
          exact absurd rfl other
        · rw [if_neg accepted] at next
          subst next
          refine ⟨silent, empty, fun ok _ => ?_⟩
          have same : io.rx.rsize = c.rx.rsize := by
            by_contra moved
            exact accepted ⟨moved, ok⟩
          rw [none staying, Buffer.removed, same, Nat.sub_self]
          rfl
  · have key := WebSocketSession.onData_key answered
    have answers' : st.Answers c.session := by
      unfold ServerStream.Answers at answers ⊢
      rwa [key] at answers
    have heard := WebSocketSession.onData_hears text binary
      ((attended.hears st ⟨answers', fits⟩).consumed staying) answers' buffered.rx
      (books.symm ▸ fits) answered
    refine ⟨heard.genuine, fun ok _ => ⟨heard.goesOn ok, fun _ idle => ?_⟩⟩
    by_cases progress : io.rx.rsize < c.rx.rsize
    · -- everything was read
      have empty : io.rx.rsize = 0 := by
        simpa [Conn.handled, Conn.log, owed, progress] using idle
      rw [(Buffer.rbuf_eq_nil_iff _).mpr empty]
      subst ok
      exact waits_nil (onData_connected answered)
    · exact heard.waits ok (Nat.le_of_not_lt progress)

theorem onShutdown_ear {s s' : WebSocketSession C} {io io' : Io} {w w' : ω} {status : Status}
    (answered : WebSocketSession.onShutdown K s io w = some (status, s', io', w')) :
    SameEar s s' ∧ io'.rx = io.rx := by
  simp only [WebSocketSession.onShutdown, Option.some.injEq, Prod.mk.injEq] at answered
  obtain ⟨-, rfl, rfl, -⟩ := answered
  refine ⟨?_, rfl⟩
  split
  · exact .refl s
  · exact ⟨rfl, rfl, rfl, rfl, rfl⟩

/-- `on_shutdown` hears nothing. -/
theorem Attended.shutDown {c : WsConn T K C indeterminate} (attended : Attended c)
    (closing : c.state = .closeProtocol) {status : Status} {s : WebSocketSession C} {io : Io} {w : ω}
    (answered : WebSocketSession.onShutdown K c.session ⟨c.rx, c.tx⟩ c.world =
      some (status, s, io, w)) :
    Attended (c.handled .onShutdown status s io w) := by
  have fed : c.state.polls = true := by rw [closing]; rfl
  obtain ⟨same, rx⟩ := onShutdown_ear answered
  have untouched : c.rx.removed io.rx = [] := by
    rw [rx]
    simp [Buffer.removed]
  refine Attended.handled fed (fun _ _ running => ?_) (fun other => ?_) fun st answers fits => ?_
  · rw [closing] at running
    cases running
  · obtain ⟨silent, empty, none⟩ := attended.waiting (same.state ▸ other)
    refine ⟨same.callbacks.trans silent, same.msg.trans empty, fun _ staying => ?_⟩
    rw [untouched, none staying]
    rfl
  · have answers' : st.Answers c.session := by
      unfold ServerStream.Answers at answers ⊢
      rwa [same.acceptKey] at answers
    obtain ⟨genuine, heard, -⟩ := attended.hears st ⟨answers', fits⟩
    refine ⟨same.callbacks ▸ genuine, fun _ staying => ⟨?_, fun running => ?_⟩⟩
    · rw [untouched, List.append_nil]
      exact same.hears (heard staying)
    · rw [closing] at running
      cases running

/-- The transport appends to RX: then `on_data` is due, if there is more than before. -/
theorem Attended.didRead {c : WsConn T K C indeterminate} (attended : Attended c)
    (reading : c.state.reads = true) (attentive : Attentive c) {status : Transport.Status}
    {e : T.Endpoint} {rx : Buffer RX_CAP} {w : ω} (grown : c.rx.rbuf <+: rx.rbuf) :
    Attended (c.didRead status e rx w) := by
  have late : ¬ c.state.rank < 3 := by
    have := State.rank_of_flows (State.flows_of_reads reading)
    omega
  have idle (running : c.state = .protocol) : owed true c.history = false :=
    attentive.idle (by rw [running]; rfl)
  refine ⟨fun young => absurd young late, fun _ _ entered => ?_, fun fresh running staying => ?_,
    attended.waiting, fun st receives => ?_⟩
  · cases entered
  · have due := (attended.idle fresh running staying).1
    rw [idle running] at due
    cases due
  · have before : Receives st c :=
      ⟨receives.answers, (List.prefix_append _ _).trans receives.received⟩
    obtain ⟨genuine, heard, settled⟩ := attended.hears st before
    refine ⟨genuine, heard, fun running staying quiet => ?_⟩
    have sizes : c.rx.rsize ≤ rx.rsize := by
      rw [← Buffer.rbuf_length, ← Buffer.rbuf_length]
      exact grown.length_le
    have same : rx.rsize = c.rx.rsize := by
      by_contra more
      have none : rx.rsize = 0 := by simpa [Conn.didRead, Conn.log, owed, more] using quiet
      omega
    have still : rx.rbuf = c.rx.rbuf := by
      refine (grown.eq_of_length ?_).symm
      rw [Buffer.rbuf_length, Buffer.rbuf_length, same]
    show Waits c.session rx.rbuf
    rw [still]
    exact settled running staying (idle running)

theorem Attended.released {c : WsConn T K C indeterminate} (attended : Attended c) :
    Attended (c.release N) := by
  have cleared : Attended (c.log (.net (.clear c.fd))) :=
    attended.grown rfl rfl (.refl _) rfl rfl rfl id rfl (by simp)
  exact cleared.grown rfl rfl (.refl _) rfl rfl rfl id rfl (by simp)

/-- **Every step keeps the session up with the stream.** -/
theorem Step.attended {c c' : WsConn T K C indeterminate} (step : Step N c c')
    (appends : T.Appends) (text : LeavesRx C.onText) (binary : LeavesRx C.onBinary)
    (buffered : Buffered c) (balanced : Balanced c) (cookie : c.cookie ≠ 0)
    (attended : Attended c) : Attended c' := by
  have young : c.state = .uninitialized ∨ c.state = .inProgress → c.state.rank < 3 := by
    rintro (state | state) <;> rw [state] <;> decide
  have closed : Attended (c.enterClosed N) :=
    (attended.assigned (s := .closed) (by simp) fun early => absurd early (by decide)).torn
      (by simp [Conn.assign])
  cases step with
  | enter entry =>
      refine attended.grown rfl rfl (.refl _) rfl rfl rfl (fun staying => ?_) rfl (by simp)
      exact staying_older (by simp) staying
  | attach k unattached => exact absurd unattached cookie
  | restart => exact attended_dialed (c := c.renew) rfl rfl rfl
  | dialFailed => exact attended.assigned (by simp) fun early => absurd early (by decide)
  | dialPending fresh =>
      have waiting : Attended (c.assign .inProgress) :=
        attended.assigned (by simp) fun _ => young (.inl fresh)
      exact waiting.grown rfl rfl (.refl _) rfl rfl rfl id rfl (by simp)
  | initFailed w fresh held =>
      have tried : Attended (c.notInitialised w) :=
        attended.grown rfl rfl (.refl _) rfl rfl rfl id rfl (by simp)
      have failed : Attended ((c.notInitialised w).assign .error) :=
        tried.assigned (by simp) fun early => absurd early (by decide)
      have released : c.initFailed N w = ((c.notInitialised w).assign .error).release N := if_pos held
      rw [released]
      exact failed.released
  | initHandshake e w fresh =>
      have made : Attended (c.initialised e w) :=
        attended.grown rfl rfl (.refl _) rfl rfl rfl id rfl (by simp)
      exact made.assigned (by simp) fun _ => young fresh
  | initPlain e w fresh =>
      have made : Attended (c.initialised e w) :=
        attended.grown rfl rfl (.refl _) rfl rfl rfl id rfl (by simp)
      have heard : Attended ((c.initialised e w).subscribe N true false) :=
        made.grown rfl rfl (.refl _) rfl rfl rfl id rfl (by simp)
      exact heard.begun (young fresh) (balanced.fresh (young fresh))
  | refused ret err w =>
      have polled : Attended (c.polled ret err w) :=
        attended.grown rfl rfl (.refl _) rfl rfl rfl id rfl (by simp)
      exact polled.failed
  | overflow =>
      have logged : Attended (c.log (.overflow c.rx)) :=
        attended.grown rfl rfl (.refl _) rfl rfl rfl id rfl (by simp)
      exact logged.failed
  | dropped | fail => exact attended.failed
  | finish | stop => exact closed
  | enterProtocol shaking =>
      have early : c.state.rank < 3 := by rw [shaking]; decide
      exact attended.begun early (balanced.fresh early)
  | read status e rx w reading room answered attentive =>
      obtain ⟨bytes, fits, wrote⟩ := appends answered buffered.rx
      apply attended.didRead reading attentive
      rw [wrote, Buffer.rbuf_write rx_small buffered.rx fits]
      exact List.prefix_append _ _
  | handler kind f status s io w handles answered =>
      cases handles with
      | onConnect declared running entered =>
          have same : WebSocketSession.onConnect K = f := Option.some.inj declared
          subst same
          exact attended.connected balanced running entered answered
      | onData running unread staying due =>
          exact attended.received text binary buffered balanced running staying answered
      | onShutdown declared closing =>
          cases declared
          exact attended.shutDown closing answered
  | heartbeat f s tx w declared running answered =>
      cases declared
      cases answered
      exact attended.grown rfl rfl (.refl _) rfl rfl rfl id rfl (by simp)
  | closeProtocol running =>
      exact attended.assigned (by simp) fun early => absurd early (by decide)
  | drainProtocol | closeTransport =>
      exact attended.assigned (by simp) fun early => absurd early (by decide)
  | clearRx unfed =>
      refine attended.moved (.refl _) rfl rfl id id fun running => ?_
      rw [show c.state = .protocol from running] at unfed
      cases unfed
  | _ => exact attended.grown rfl rfl (.refl _) rfl rfl rfl id rfl (by simp)

/-- **Messages reach the codec.**  Over any transport that appends what it received and takes from
the front of what it is offered, in any run of a WebSocket connection: if what was received in
this epoch is a beginning of a server's stream, whose response answers the request, the codec has
been given the first of the messages in it, in order, and no other; and whenever the calls have
returned and the connection is running, it has been given every message that has arrived. -/
theorem messages_reach_codec (transport : T.Within) (appends : T.Appends) (drains : T.Drains)
    (within : C.Within) (text : LeavesRx C.onText) (binary : LeavesRx C.onBinary) (fuel : Nat)
    {cookie : Nat} (attached : cookie ≠ 0) {later : List Entry} (alive : .destruct ∉ later)
    (host : String) (port : UInt16) (tc : T.Config) (config : WebSocketConfig C.Config) (w : ω)
    (st : ServerStream) :
    let run := (exec N fuel (.attach cookie :: later)).exec
      (Conn.make host port tc config w : WsConn T K C indeterminate)
    Receives st run.2 →
      run.2.session.callbacks <+: st.allCalls C ∧
        (run.1 = some () → run.2.state = .protocol →
          ∀ j, st.upTo j <+: (ledger run.2.history).received →
            st.calls C j <+: run.2.session.callbacks) := by
  intro run
  have reached : Reached N _ later run.1 run.2 :=
    exec_attach_reached fuel cookie later
      (make_rest (P := webSocket K C indeterminate) host port tc config w) rfl
  obtain ⟨r, c⟩ := run
  intro receives
  cases reached with
  | destructed _ _ _ member => exact absurd member alive
  | alive path rest =>
      let inv (c : WsConn T K C indeterminate) : Prop :=
        c.cookie ≠ 0 ∧ Buffered c ∧ Balanced c ∧ Attended c
      have uses := webSocket_uses K within indeterminate
      have keeps : ∀ c c' : WsConn T K C indeterminate, Step N c c' → inv c → inv c' := by
        rintro c c' step ⟨cookie, buffered, balanced, attended⟩
        exact ⟨step.attachedOnce cookie, step.buffered transport uses.within buffered,
          step.balanced appends drains uses buffered balanced,
          step.attended appends text binary buffered balanced cookie attended⟩
      have start : inv ((Conn.make host port tc config w : WsConn T K C indeterminate).attached
          N cookie) := by
        have made := make_buffered (T := T) (P := webSocket K C indeterminate) host port tc config w
        have fresh := make_balanced (T := T) (P := webSocket K C indeterminate) host port tc config w
        refine ⟨attached, ?_, ?_, ?_⟩
        · exact Buffered.dialed (c := { (Conn.make host port tc config w :
            WsConn T K C indeterminate).log (.enter (.attach cookie)) with cookie := cookie })
            (made.grown rfl rfl rfl trivial)
        · exact balanced_dialed (c := { (Conn.make host port tc config w :
            WsConn T K C indeterminate).log (.enter (.attach cookie)) with cookie := cookie })
            (fresh.logged rfl).past
        · exact attended_dialed (c := { (Conn.make host port tc config w :
            WsConn T K C indeterminate).log (.enter (.attach cookie)) with cookie := cookie })
            rfl rfl rfl
      obtain ⟨-, -, balanced, attended⟩ := path_invariant keeps path start
      obtain ⟨genuine, consumed, settled⟩ := attended.hears st receives
      refine ⟨genuine, fun returned running j arrived => ?_⟩
      have attentive := (rest returned).1.session.attentive
      have staying := attentive.staying running
      have waits := settled running staying (attentive.idle (by rw [running]; rfl))
      rw [← balanced.input (by rw [running]; decide)] at arrived
      exact (consumed staying).complete receives.answers waits arrived

theorem parrot_leaves {ω : Type} : LeavesRx (parrot : Codec ω).onText ∧
    LeavesRx (parrot : Codec ω).onBinary := by
  have echoes : ∀ {st : Unit} {io : Io} {payload : Span} {w : ω} {status st' io' w'},
      (if payload.bytes.length ≤ io.tx.wsize then
        some (Protocol.Status.ok, st, { io with tx := io.tx.write payload.bytes }, w)
      else some (.error, st, io, w)) = some (status, st', io', w') → io'.rx = io.rx := by
    intro st io payload w status st' io' w' answered
    split at answered <;> cases answered <;> rfl
  constructor
  · rintro g ⟨⟩ st io payload w status st' io' w' answered
    exact echoes answered
  · rintro g ⟨⟩ st io payload w status st' io' w' answered
    exact echoes answered

/-- The text message `hi`, then `yo` in two frames. -/
def hiYoFrames : List ServerFrame :=
  [⟨true, ⟨1, Nat.le_of_ble_eq_true rfl⟩, [0x68, 0x69], .len7, Nat.le_of_ble_eq_true rfl⟩,
    ⟨false, ⟨1, Nat.le_of_ble_eq_true rfl⟩, [0x79], .len7, Nat.le_of_ble_eq_true rfl⟩,
    ⟨true, ⟨0, Nat.le_of_ble_eq_true rfl⟩, [0x6F], .len7, Nat.le_of_ble_eq_true rfl⟩]

theorem hiYo_legal : (reassemble none (hiYoFrames.map ServerFrame.frame)).2 ≠ none := by decide

def hiYo : ServerStream := ⟨zeroResponse, hiYoFrames, hiYo_legal⟩

/-- Two frames have come in three pieces, and the header of the third. -/
def hiYoPieces : Script where
  reads := [.ok (zeroResponse.take 30), .error .eagain, .ok (zeroResponse.drop 30 ++ [0x81, 2, 0x68]),
    .ok [0x69, 0x01, 1, 0x79, 0x80, 1], .error .eagain]

theorem messages_reach_codec_hi :
    let run := (exec scripted 9 [.attach 1, .handleEvent arrival, .handleEvent arrival]).exec
      (webSocketConn hiYoPieces)
    run.2.session.callbacks <+: [(.text, ⟨[0x68, 0x69], 2⟩), (.text, ⟨[0x79, 0x6F], 2⟩)] ∧
      [(.text, ⟨[0x68, 0x69], 2⟩)] <+: run.2.session.callbacks := by
  intro run
  have receives : Receives hiYo run.2 := by
    refine ⟨?_, ?_⟩
    · show readHandshake run.2.session.acceptKey.toList zeroResponse = _
      decide +kernel
    · show (ledger run.2.history).received <+: _
      decide +kernel
  obtain ⟨genuine, complete⟩ := messages_reach_codec (N := scripted) (K := zeroCrypto) (C := parrot)
    (Transport.plain_within scripted_bounded 1) (Transport.plain_appends scripted_bounded 1)
    (Transport.plain_drains scripted_bounded 1) parrot_within parrot_leaves.1 parrot_leaves.2 9
    (show 1 ≠ 0 by decide) (by decide) "host" 80 () rootConfig hiYoPieces hiYo receives
  refine ⟨genuine, complete ?_ ?_ 1 ?_⟩
  · decide +kernel
  · decide +kernel
  · decide +kernel

end Manet.Reactor
