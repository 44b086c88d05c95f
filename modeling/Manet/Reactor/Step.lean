/-
# Manet.Reactor.Step — everything a connection can do

`Step` says once what any method of the connection can do next, with the states
in which it does it.  It is the transition relation of the state machine: one
constructor per call the connection makes and per assignment to `_state` (an
assignment and the teardown or subscription that belongs to it are one step).
The properties of whole runs are invariants of `Step`; that the methods follow it
is `Manet.Reactor.Paths`.  Only the destructor is not a step: nothing follows it.

Two constructors show where the code is not a forward machine: `drainProtocol` and
`closeTransport` may also be entered after an `overwritten` or `retreated`
history, from whatever state that left.
-/
import Manet.Reactor.History

namespace Manet.Reactor

open Manet.Flow Manet.Net Relation

set_option autoImplicit false

variable {ω : Type} (N : Backend ω) {T : Transport.Layer ω} {P : Protocol.Layer ω}

/-- The handlers and when they are called: `on_connect` as the first thing after
`protocol` is entered, `on_data` on unread bytes that it has not seen or has just made
progress on, `on_shutdown` until it has said its last word. -/
inductive Handles (c : Conn T P) : Protocol.HandlerKind → Protocol.Handler P.Session ω → Prop where
  | onConnect {f : Protocol.Handler P.Session ω} (declared : P.onConnect = some f)
      (running : c.state = .protocol) {s : State}
      (first : c.history.head? = some (s, .assign .protocol)) : Handles c .onConnect f
  | onData (running : c.state = .protocol) (unread : c.rx.rsize ≠ 0)
      (staying : leaving c.history = false) (due : owed P.onConnect.isSome c.history = true) :
      Handles c .onData P.onData
  | onShutdown {f : Protocol.Handler P.Session ω} (declared : P.onShutdown = some f)
      (closing : c.state = .closeProtocol) (undone : dismissed c.history = false) :
      Handles c .onShutdown f

theorem Handles.polls {c : Conn T P} {kind : Protocol.HandlerKind}
    {f : Protocol.Handler P.Session ω} (handles : Handles c kind f) : c.state.polls = true := by
  cases handles with
  | onConnect _ running => rw [running]; rfl
  | onData running => rw [running]; rfl
  | onShutdown _ closing => rw [closing]; rfl

/-- While the session is fed it stays, and while it is called nothing is due to it. -/
structure Attentive (c : Conn T P) : Prop where
  staying : c.state = .protocol → leaving c.history = false
  idle : c.state.polls = true → owed P.onConnect.isSome c.history = false

/-- When a call that does not return may have been made. -/
def Callee.permitted (c : Conn T P) : Callee → Prop
  | .handshakeStep => c.state = .transport
  | .read offered => c.state.reads = true ∧ offered = c.rx ∧ c.rx.full = false
  | .write offered => c.state.flows = true ∧ c.fd ≠ -1 ∧ offered = c.tx
  | .shutdownStep => c.state = .closeTransport
  | .handler kind offered => offered = ⟨c.rx, c.tx⟩ ∧ ∃ f, Handles c kind f
  | .heartbeat => c.state = .protocol ∧ Attentive c

/-- Why `close_transport` is entered. -/
inductive Closes (c : Conn T P) : Prop where
  | flushed (flowing : c.state.flows = true) (empty : c.fd ≠ -1 → c.tx.rsize = 0)
      (word : c.state = .protocol → leaving c.history = true)
  | severed (connected : c.state.connected = true) (cut : lately cuts c.history = true)
  | stopped (entered : c.history.head? = some (c.state, .enter .stop))
      (early : c.state = .transport ∨ c.state = .protocol ∧ P.onShutdown = none)
  | lost (failed : c.state = .error) (idle : c.fd = -1) (lost : overwritten c.history = true)

theorem Closes.closing {c : Conn T P} (closes : Closes c) :
    c.state.connected = true ∨ overwritten c.history = true := by
  cases closes with
  | flushed flowing => exact .inl (State.connected_of_flows flowing)
  | severed connected => exact .inl connected
  | stopped _ early =>
      refine .inl ?_
      rcases early with state | ⟨state, -⟩ <;> rw [state] <;> rfl
  | lost _ _ lost => exact .inr lost

/-- What can happen next.  `O` says whether calls from outside are among it. -/
inductive Move (O : Prop) : Conn T P → Conn T P → Prop where
  | enter (c : Conn T P) (entry : Entry) (attached : ∀ k, entry = .attach k → c.cookie ≠ 0)
      (outside : O) : Move O c (c.log (.enter entry))
  | attach (c : Conn T P) (k : Nat) (unattached : c.cookie = 0) (outside : O) :
      Move O c ({ c.log (.enter (.attach k)) with cookie := k }.begin.dial N).2
  | restart (c : Conn T P) (done : c.state.terminal = true) (idle : c.fd = -1)
      (entered : c.history.head? = some (c.state, .enter .restart)) (outside : O) :
      Move O c (c.renew.begin.dial N).2
  | dialFailed (c : Conn T P) (fresh : c.state = .uninitialized) (failed : c.fd = -1) :
      Move O c (c.assign .error)
  | dialPending (c : Conn T P) (fresh : c.state = .uninitialized) (held : c.fd ≠ -1) :
      Move O c ((c.assign .inProgress).subscribe N false true)
  | initFailed (c : Conn T P) (w : ω) (fresh : c.state = .uninitialized ∨ c.state = .inProgress)
      (held : c.fd ≠ -1) (failed : T.init c.fd c.transportConfig c.world = (none, w)) :
      Move O c (c.initFailed N w)
  | initHandshake (c : Conn T P) (e : T.Endpoint) (w : ω)
      (fresh : c.state = .uninitialized ∨ c.state = .inProgress) (held : c.fd ≠ -1)
      (made : T.init c.fd c.transportConfig c.world = (some e, w)) :
      Move O c ((c.initialised e w).assign .transport)
  | initPlain (c : Conn T P) (e : T.Endpoint) (w : ω)
      (fresh : c.state = .uninitialized ∨ c.state = .inProgress) (held : c.fd ≠ -1)
      (made : T.init c.fd c.transportConfig c.world = (some e, w)) (plain : T.handshakeStep = none) :
      Move O c (((c.initialised e w).subscribe N true false).assign .protocol)
  | polled (c : Conn T P) (ret err : Int) (w : ω) (waiting : c.state = .inProgress)
      (answered : N.getsockopt c.fd c.world = ((ret, err), w)) (connected : ret ≠ -1 ∧ err = 0) :
      Move O c (c.polled ret err w)
  | refused (c : Conn T P) (ret err : Int) (w : ω) (waiting : c.state = .inProgress)
      (answered : N.getsockopt c.fd c.world = ((ret, err), w)) (failed : ret = -1 ∨ err ≠ 0) :
      Move O c ((c.polled ret err w).enterError N)
  | dropped (c : Conn T P) (ev : Event) (waiting : c.state = .inProgress)
      (entered : c.history.head? = some (c.state, .enter (.handleEvent ev)))
      (failed : ev.writeable = false ∧ (ev.error = true ∨ ev.close = true)) :
      Move O c (c.enterError N)
  | handshake (c : Conn T P)
      (f : T.Endpoint → ω → Option (Transport.Status × T.Endpoint × ω))
      (status : Transport.Status) (e : T.Endpoint) (w : ω) (declared : T.handshakeStep = some f)
      (shaking : c.state = .transport) (answered : f c.transport c.world = some (status, e, w)) :
      Move O c (c.handshook status e w)
  | enterProtocol (c : Conn T P) (shaking : c.state = .transport)
      (shook : c.history.head? = some (c.state, .handshakeStep .ok)) : Move O c (c.assign .protocol)
  | subscribe (c : Conn T P) (r w : Bool) : Move O c (c.subscribe N r w)
  | read (c : Conn T P) (status : Transport.Status) (e : T.Endpoint) (rx : Buffer RX_CAP) (w : ω)
      (reading : c.state.reads = true) (room : c.rx.full = false)
      (answered : T.read c.transport c.rx c.world = some (status, e, rx, w))
      (attentive : Attentive c) : Move O c (c.didRead status e rx w)
  | overflow (c : Conn T P) (reading : c.state.reads = true) (full : c.rx.full = true)
      (attentive : Attentive c) : Move O c ((c.log (.overflow c.rx)).enterError N)
  | write (c : Conn T P) (status : Transport.Status) (e : T.Endpoint) (tx : Buffer TX_CAP) (w : ω)
      (flowing : c.state.flows = true) (held : c.fd ≠ -1) (unsent : c.tx.rsize ≠ 0)
      (answered : T.write c.transport c.tx c.world = some (status, e, tx, w)) :
      Move O c (c.didWrite status e tx w)
  | handler (c : Conn T P) (kind : Protocol.HandlerKind) (f : Protocol.Handler P.Session ω)
      (status : Protocol.Status) (s : P.Session) (io : Io) (w : ω) (handles : Handles c kind f)
      (answered : f c.protocol ⟨c.rx, c.tx⟩ c.world = some (status, s, io, w)) :
      Move O c (c.handled kind status s io w)
  | heartbeat (c : Conn T P)
      (f : P.Session → Buffer TX_CAP → ω → Option (P.Session × Buffer TX_CAP × ω))
      (s : P.Session) (tx : Buffer TX_CAP) (w : ω) (declared : P.heartbeat = some f)
      (running : c.state = .protocol) (answered : f c.protocol c.tx c.world = some (s, tx, w))
      (attentive : Attentive c) (entered : c.history.head? = some (c.state, .enter .heartbeat)) :
      Move O c (c.beaten s tx w)
  | closeProtocol (c : Conn T P) (running : c.state = .protocol)
      (word : leaving c.history = true) (undone : dismissed c.history = false) :
      Move O c (c.assign .closeProtocol)
  | drainProtocol (c : Conn T P)
      (closing : c.state.polls = true ∨ (c.state = .error ∧ c.fd = -1) ∧ overwritten c.history = true ∨
        c.state = .closeTransport ∧ retreated c.history = true)
      (word : c.state = .protocol → leaving c.history = true) :
      Move O c (c.assign .drainProtocol)
  | closeTransport (c : Conn T P) (closes : Closes c) : Move O c (c.assign .closeTransport)
  | shutdown (c : Conn T P)
      (f : T.Endpoint → ω → Option (Transport.Status × T.Endpoint × ω))
      (status : Transport.Status) (e : T.Endpoint) (w : ω) (declared : T.shutdownStep = some f)
      (closing : c.state = .closeTransport)
      (answered : f c.transport c.world = some (status, e, w)) :
      Move O c (c.didShutdown status e w)
  | fail (c : Conn T P) (connected : c.state.connected = true)
      (cause : c.state = .protocol → leaving c.history = true ∨ lately cuts c.history = true) :
      Move O c (c.enterError N)
  | finish (c : Conn T P) (closing : c.state = .closeTransport) : Move O c (c.enterClosed N)
  | stop (c : Conn T P)
      (early : c.state = .uninitialized ∧ c.fd = -1 ∨ c.state = .inProgress)
      (entered : c.history.head? = some (c.state, .enter .stop)) : Move O c (c.enterClosed N)
  | clearRx (c : Conn T P) (unfed : c.state.polls = false) : Move O c { c with rx := c.rx.clear }
  | noReturn (c : Conn T P) (callee : Callee) (permitted : callee.permitted c) :
      Move O c (c.log (.noReturn callee))
  | unreachable (c : Conn T P) (fresh : c.state = .uninitialized) : Move O c (c.log .unreachable)

/-- Any step of a connection. -/
abbrev Step : Conn T P → Conn T P → Prop := Move N True

variable {N} {O : Prop}

/-- The history only grows. -/
theorem Move.suffix {c c' : Conn T P} (step : Move N O c c') : c.history <:+ c'.history := by
  have grow : ∀ (entry : State × Act) (h : History), h <:+ entry :: h := List.suffix_cons
  have error : ∀ c : Conn T P, c.history <:+ (c.enterError N).history := fun c =>
    (grow _ _).trans (Conn.teardown_suffix N (c.assign .error))
  have closed : ∀ c : Conn T P, c.history <:+ (c.enterClosed N).history := fun c =>
    (grow _ _).trans (Conn.teardown_suffix N (c.assign .closed))
  cases step with
  | attach k _ =>
      exact ((grow _ _).trans (grow _ _)).trans (List.suffix_append (_ :: _) _)
  | restart _ _ _ => exact (grow _ _).trans (List.suffix_append (_ :: _) _)
  | dialPending | initHandshake => exact ⟨[_, _], rfl⟩
  | initPlain => exact ⟨[_, _, _], rfl⟩
  | initFailed w _ held _ => exact Conn.initFailed_suffix N w held
  | refused ret err w => exact (grow _ _).trans (error (c.polled ret err w))
  | overflow => exact (grow _ _).trans (error (c.log (.overflow c.rx)))
  | dropped | fail => exact error _
  | finish | stop => exact closed _
  | clearRx => exact List.suffix_rfl
  | _ => exact grow _ _

theorem path_suffix {c c' : Conn T P} (path : ReflTransGen (Move N O) c c') :
    c.history <:+ c'.history := by
  induction path with
  | refl => exact List.suffix_rfl
  | tail _ step ih => exact ih.trans step.suffix

/-- A connection that is done holds no descriptor. -/
def Grounded (c : Conn T P) : Prop := c.state.terminal = true → c.fd = -1

theorem Move.grounded {c c' : Conn T P} (step : Move N O c c') (grounded : Grounded c) :
    Grounded c' := by
  have torn : ∀ c : Conn T P, Grounded (c.teardown N) := fun c _ => Conn.teardown_fd N c
  cases step with
  | initFailed w => exact fun _ => Conn.initFailed_fd N c w
  | refused | dropped | overflow | fail | finish | stop => exact torn _
  | dialFailed _ failed => exact fun _ => failed
  | attach | restart | dialPending | initHandshake | initPlain | enterProtocol | closeProtocol
  | drainProtocol | closeTransport => exact fun done => by cases done
  | _ => exact grounded

theorem path_grounded {c c' : Conn T P} (path : ReflTransGen (Move N O) c c') :
    Grounded c → Grounded c' :=
  path_invariant (R := Move N O) (fun _ _ step => step.grounded) path

/-- The session is not fed before the last step of the handshake has been answered,
and then that step has asked for nothing. -/
def Shaken (c : Conn T P) : Prop :=
  (c.state = .uninitialized ∨ c.state = .inProgress → asked c.history = none) ∧
    (c.state = .protocol →
      asked c.history ≠ some .wantRead ∧ asked c.history ≠ some .wantWrite)

theorem Shaken.of_quiet {c : Conn T P}
    (moved : c.state ≠ .uninitialized ∧ c.state ≠ .inProgress ∧ c.state ≠ .protocol) :
    Shaken c :=
  ⟨fun h => (by rcases h with h | h <;> simp [h] at moved), fun h => absurd h moved.2.2⟩

theorem asked_dialed (c : Conn T P) : asked (c.begin.dial N).2.history = none :=
  Conn.dial_unread N (fun _ _ _ => rfl) (fun _ _ _ => rfl) c.begin

theorem Move.shaken {c c' : Conn T P} (step : Move N O c c') (shaken : Shaken c) : Shaken c' := by
  have error : ∀ c : Conn T P, Shaken (c.enterError N) := fun c =>
    .of_quiet (by rw [Conn.enterError_state]; simp)
  have closed : ∀ c : Conn T P, Shaken (c.enterClosed N) := fun c =>
    .of_quiet (by rw [Conn.enterClosed_state]; simp)
  cases step with
  | attach | restart => exact ⟨fun _ => asked_dialed _, fun state => by cases state⟩
  | dialPending fresh => exact ⟨fun _ => shaken.1 (.inl fresh), fun state => by cases state⟩
  | initFailed w => exact .of_quiet (by rw [Conn.initFailed_state]; simp)
  | initPlain e w fresh =>
      refine ⟨fun h => (by rcases h with h | h <;> cases h), fun _ => ?_⟩
      have none : asked c.history = Option.none := shaken.1 fresh
      simp [Conn.assign, Conn.subscribe, Conn.initialised, Conn.log, asked, none]
  | enterProtocol shaking shook =>
      refine ⟨fun h => (by rcases h with h | h <;> cases h), fun _ => ?_⟩
      obtain ⟨h, history⟩ : ∃ h, c.history = (c.state, .handshakeStep .ok) :: h := by
        rcases hist : c.history with _ | ⟨entry, h⟩
        · rw [hist] at shook; cases shook
        · rw [hist] at shook; cases shook; exact ⟨h, rfl⟩
      simp [Conn.assign, Conn.log, asked, history]
  | refused | dropped | overflow | fail => exact error _
  | finish | stop => exact closed _
  | handshake _ status e w _ shaking =>
      have state : (c.handshook status e w).state = .transport := shaking
      exact .of_quiet (by rw [state]; simp)
  | shutdown _ status e w _ closing =>
      have state : (c.didShutdown status e w).state = .closeTransport := closing
      exact .of_quiet (by rw [state]; simp)
  | dialFailed | initHandshake | closeProtocol | drainProtocol | closeTransport =>
      exact .of_quiet (by simp [Conn.assign])
  | _ => exact shaken

theorem path_shaken {c c' : Conn T P} (path : ReflTransGen (Move N O) c c') :
    Shaken c → Shaken c' :=
  path_invariant (R := Move N O) (fun _ _ step => step.shaken) path

/-- Without a cookie, no `attach` has given one. -/
theorem Move.unattached {c c' : Conn T P} (step : Move N O c c')
    (unattached : c.cookie = 0 → attached c.history = false) :
    c'.cookie = 0 → attached c'.history = false := by
  have torn : ∀ c : Conn T P, attached (c.teardown N).history = attached c.history :=
    Conn.teardown_unread N (fun _ _ => rfl) (fun _ _ => rfl) fun _ _ _ => rfl
  cases step with
  | enter entry fixed =>
      intro zero
      cases entry with
      | attach k => exact absurd zero (fixed k rfl)
      | _ => exact unattached zero
  | attach k zero =>
      intro (same : k = 0)
      subst same
      exact (Conn.dial_unread N (fun _ _ _ => rfl) (fun _ _ _ => rfl) _).trans (unattached zero)
  | restart =>
      intro zero
      exact (Conn.dial_unread N (fun _ _ _ => rfl) (fun _ _ _ => rfl) _).trans (unattached zero)
  | initFailed w _ held =>
      rw [Conn.initFailed_cookie]
      intro zero
      exact (Conn.initFailed_unread N (f := attached) (fun _ _ => rfl) (fun _ _ _ => rfl) w held).trans
        (unattached zero)
  | refused | dropped | overflow | fail | finish | stop =>
      simp only [Conn.enterError, Conn.enterClosed, Conn.teardown_cookie, torn]
      exact unattached
  | _ => exact unattached

/-- A cookie is never taken back. -/
theorem Move.attachedOnce {c c' : Conn T P} (step : Move N O c c') (cookie : c.cookie ≠ 0) :
    c'.cookie ≠ 0 := by
  cases step with
  | attach k zero => exact absurd zero cookie
  | initFailed w =>
      rw [Conn.initFailed_cookie]
      exact cookie
  | refused | dropped | overflow | fail | finish | stop =>
      simp only [Conn.enterError, Conn.enterClosed, Conn.teardown_cookie]
      exact cookie
  | _ => exact cookie

/-- The session a restart would begin with. -/
def Conn.newSession (c : Conn T P) : P.Session := P.session c.host c.port c.protocolConfig

theorem Conn.newSession_sessionTeardown (c : Conn T P) :
    c.sessionTeardown.newSession = c.newSession := by
  unfold sessionTeardown
  split <;> rfl

theorem Conn.newSession_teardown (c : Conn T P) : (c.teardown N).newSession = c.newSession := by
  unfold teardown
  split
  · exact c.newSession_sessionTeardown
  · rfl

theorem Move.newSession {c c' : Conn T P} (step : Move N O c c') : c'.newSession = c.newSession := by
  cases step with
  | initFailed w =>
      simp only [Conn.initFailed]
      split
      · exact Conn.newSession_sessionTeardown _
      · rfl
  | refused | dropped | overflow | fail | finish | stop => exact Conn.newSession_teardown _
  | _ => rfl

/-- A connected state holds a descriptor, unless it was assigned over an error. -/
def Moored (c : Conn T P) : Prop :=
  overwritten c.history = false → c.state.connected = true → c.fd ≠ -1

theorem Move.moored {c c' : Conn T P} (step : Move N O c c') (moored : Moored c) : Moored c' := by
  have error : ∀ c : Conn T P, Moored (c.enterError N) := by
    intro c _ connected
    rw [Conn.enterError_state] at connected
    cases connected
  have closed : ∀ c : Conn T P, Moored (c.enterClosed N) := by
    intro c _ connected
    rw [Conn.enterClosed_state] at connected
    cases connected
  have older : overwritten c'.history = false → overwritten c.history = false :=
    never_of_suffix step.suffix
  cases step with
  | attach | restart | dialFailed | dialPending => exact fun _ connected => by cases connected
  | initFailed w =>
      intro _ connected
      rw [Conn.initFailed_state] at connected
      cases connected
  | initHandshake e w fresh held | initPlain e w fresh held => exact fun _ _ => held
  | refused | dropped | overflow | fail => exact error _
  | finish | stop => exact closed _
  | enterProtocol shaking => exact fun never _ => moored (older never) (by rw [shaking]; rfl)
  | closeProtocol running => exact fun never _ => moored (older never) (by rw [running]; rfl)
  | drainProtocol closing =>
      intro never _
      refine moored (older never) ?_
      rcases closing with polls | ⟨-, lost⟩ | ⟨state, -⟩
      · exact State.connected_of_flows (State.flows_of_polls polls)
      · rw [older never] at lost; cases lost
      · rw [state]; rfl
  | closeTransport closes =>
      intro never _
      refine moored (older never) ?_
      rcases closes.closing with connected | lost
      · exact connected
      · rw [older never] at lost; cases lost
  | _ => exact fun never connected => moored (older never) connected

/-- Only a call from outside begins an epoch. -/
theorem Move.epoch {c c' : Conn T P} (move : Move N False c c') : epoch c'.history = epoch c.history := by
  have torn : ∀ c : Conn T P, Reactor.epoch (c.teardown N).history = Reactor.epoch c.history :=
    Conn.teardown_unread N (fun _ _ => rfl) (fun _ _ => rfl) fun _ _ _ => rfl
  cases move with
  | enter _ _ outside | attach _ _ outside | restart _ _ _ outside => exact outside.elim
  | initFailed w _ held =>
      exact Conn.initFailed_unread N (f := Reactor.epoch) (fun _ _ => rfl) (fun _ _ _ => rfl) w held
  | refused | dropped | overflow | fail => exact torn _
  | finish | stop => exact torn _
  | _ => rfl

theorem path_lately {event : State → Act → History → Bool} {c c' : Conn T P}
    (path : ReflTransGen (Move N False) c c') (past : lately event c.history = true) :
    lately event c'.history = true := by
  induction path with
  | refl => exact past
  | tail _ last ih => exact lately_of_suffix last.suffix last.epoch ih

end Manet.Reactor
