/-
# Manet.Reactor.Upgrade — what a WebSocket connection says before the upgrade

A connection in `protocol` and a session that is `listening` are two different things:
in between, the session waits for the server's response.  `upgraded` reads off the
history when that is over.

What is queued before then is the upgrade request, from `on_connect`, and nothing else
(`only_the_request`), as long as neither `heartbeat` nor `stop` is called on a connection
that is in `protocol` and not upgraded: both of them write a frame without asking the
session's state.
-/
import Manet.Reactor.Windows

namespace Manet.Reactor

open Manet.Flow Manet.Net Relation

set_option autoImplicit false

/-- The bytes an act has put behind what was unsent. -/
def Act.queued : Act → List UInt8
  | .handler _ _ before after => before.tx.appended after.tx
  | .heartbeat before after => before.appended after
  | _ => []

def Act.greets : Act → Bool
  | .handler .onConnect _ _ _ => true
  | _ => false

/-- In this epoch `on_data` has consumed something and answered `ok`: the server's response,
to begin with. -/
def upgraded : History → Bool
  | [] => false
  | (_, .begin) :: _ => false
  | (_, .handler kind status before after) :: h =>
      kind = .onData && status = .ok && after.rx.rsize ≠ before.rx.rsize || upgraded h
  | _ :: h => upgraded h

/-- Before the upgrade, nothing is queued but a `request` by `on_connect`. -/
def restrained (request : List UInt8 → Prop) (_ : State) (act : Act) (h : History) : Prop :=
  upgraded h = false → act.queued = [] ∨ act.greets = true ∧ request act.queued

/-- `heartbeat` or `stop` finds the connection in `protocol`, and the session waiting. -/
def hurries (s : State) (act : Act) (h : History) : Bool :=
  match act with
  | .enter .heartbeat => s = .protocol && !upgraded h
  | .enter .stop => s = .protocol && !upgraded h
  | _ => false

section WebSocket

variable {ω : Type} {N : Backend ω} {T : Transport.Layer ω} {K : Protocol.Crypto ω}
  {C : Protocol.Codec ω} {indeterminate : Protocol.OpCode}

/-- A connection that speaks WebSocket. -/
abbrev WsConn (T : Transport.Layer ω) (K : Protocol.Crypto ω) (C : Protocol.Codec ω)
    (indeterminate : Protocol.OpCode) : Type :=
  Conn T (Protocol.webSocket K C indeterminate)

def Conn.session (c : WsConn T K C indeterminate) : Protocol.WebSocketSession C := c.protocol

/-- The session's upgrade request, whatever key it draws, is such a `request`. -/
def Requests (K : Protocol.Crypto ω) (request : List UInt8 → Prop) (s : Protocol.WebSocketSession C) :
    Prop :=
  ∀ w, request (Protocol.makeHandshake K s.host s.path s.extra w).1.upgradeRequest

theorem Requests.kept {request : List UInt8 → Prop} {s s' : Protocol.WebSocketSession C}
    (requests : Requests K request s) (kept : s.Kept s') : Requests K request s' := by
  intro w
  rw [kept.host, kept.path, kept.extra]
  exact requests w

variable {request : List UInt8 → Prop}

structure Restraint (request : List UInt8 → Prop) (c : WsConn T K C indeterminate) : Prop where
  past : Always (restrained request) c.history
  now : Requests K request c.session
  later : Requests (C := C) K request c.newSession
  listens : c.session.state = .listening → upgraded c.history = true
  silent : c.state.rank < 3 → leaving c.history = false
  closing : c.state = .closeProtocol → leaving c.history = true
  /-- The session leaves on its own word, or was stopped, once it is upgraded. -/
  parts : c.state.polls = true → leaving c.history = true → dismissed c.history = false →
    upgraded c.history = true

/-- An act that queues nothing and is not the session's. -/
theorem Restraint.grown {c c' : WsConn T K C indeterminate} (restraint : Restraint request c)
    {s : State} {act : Act} (history : c'.history = (s, act) :: c.history)
    (state : c'.state = c.state) (session : c'.session = c.session)
    (newSession : c'.newSession = c.newSession) (quiet : act.queued = [])
    (same : upgraded ((s, act) :: c.history) = upgraded c.history)
    (stays : leaving ((s, act) :: c.history) = leaving c.history)
    (undone : dismissed ((s, act) :: c.history) = dismissed c.history) :
    Restraint request c' := by
  obtain ⟨past, now, later, listens, silent, closing, parts⟩ := restraint
  refine ⟨?_, session ▸ now, newSession ▸ later, ?_, ?_, ?_, ?_⟩ <;> rw [history]
  · exact always_cons.mpr ⟨fun _ => .inl quiet, past⟩
  · rw [same, session]
    exact listens
  · rw [stays, state]
    exact silent
  · rw [stays, state]
    exact closing
  · rw [same, stays, undone, state]
    exact parts

/-- An assignment to a state in which the session is not called. -/
theorem Restraint.unfed {c : WsConn T K C indeterminate} (restraint : Restraint request c) {s : State}
    (unfed : s.polls = false) (early : s.rank < 3 → c.state.rank < 3) :
    Restraint request (c.assign s) where
  past := (always_skip fun _ => .inl rfl).mpr restraint.past
  now := restraint.now
  later := restraint.later
  listens := restraint.listens
  silent := restraint.silent ∘ early
  closing state := by
    rw [show s = .closeProtocol from state] at unfed
    cases unfed
  parts polls := by
    rw [show s.polls = true from polls] at unfed
    cases unfed

theorem Restraint.left {c : WsConn T K C indeterminate} (restraint : Restraint request c) {s : State}
    (late : 4 < s.rank) : Restraint request (c.assign s) := by
  refine restraint.unfed ?_ fun early => by omega
  revert late
  cases s <;> simp [State.polls, State.rank]

theorem Restraint.released {c : WsConn T K C indeterminate} (restraint : Restraint request c) :
    Restraint request (c.release N) := by
  have cleared : Restraint request (c.log (.net (.clear c.fd))) :=
    restraint.grown rfl rfl rfl rfl rfl rfl rfl rfl
  exact cleared.grown rfl rfl rfl rfl rfl rfl rfl rfl

theorem Restraint.torn {c : WsConn T K C indeterminate} (restraint : Restraint request c) :
    Restraint request (c.teardown N) := by
  by_cases held : c.fd = -1
  · rw [Conn.teardown_idle N held]
    exact restraint
  · have destroyed : Restraint request c.endpointDestroy :=
      restraint.grown rfl rfl rfl rfl rfl rfl rfl rfl
    have released : c.teardown N = c.endpointDestroy.release N := if_pos held
    rw [released]
    exact destroyed.released

theorem Restraint.dialed {c : WsConn T K C indeterminate} (restraint : Restraint request c) :
    Restraint request (c.renew.begin.dial N).2 where
  past := by
    rw [Conn.dial_unread N (fun _ _ _ => always_skip fun _ => .inl rfl)
      fun _ _ _ => always_skip fun _ => .inl rfl]
    exact (always_skip fun _ => .inl rfl).mpr restraint.past
  now := restraint.later
  later := restraint.later
  listens listening := by cases listening
  silent _ := silent_dialed c.renew
  closing state := by cases state
  parts polls := by cases polls

/-- `protocol` is entered before the session has answered anything. -/
theorem Restraint.begun {c : WsConn T K C indeterminate} (restraint : Restraint request c)
    (early : c.state.rank < 3) : Restraint request (c.assign .protocol) where
  past := (always_skip fun _ => .inl rfl).mpr restraint.past
  now := restraint.now
  later := restraint.later
  listens := restraint.listens
  silent := restraint.silent ∘ fun _ => early
  closing state := by cases state
  parts _ leaves := absurd leaves (by simp [Conn.assign, Conn.log, leaving, restraint.silent early])

/-- What a handler of the session leaves, given what it queued and how it answered. -/
theorem Restraint.handled {c : WsConn T K C indeterminate} (restraint : Restraint request c)
    (polls : c.state.polls = true) {kind : Protocol.HandlerKind} {status : Protocol.Status}
    {s : Protocol.WebSocketSession C} {io : Io} {w : ω} (now : Requests K request s)
    (queued : upgraded c.history = true ∨ c.tx.appended io.tx = [] ∨
      kind = .onConnect ∧ request (c.tx.appended io.tx))
    (listens : s.state = .listening → c.session.state = .listening ∨
      kind = .onData ∧ status = .ok ∧ io.rx.rsize ≠ c.rx.rsize)
    (word : status = .close → upgraded c.history = true) :
    Restraint request (c.handled kind status s io w) := by
  have grown : upgraded c.history = true → upgraded (c.handled kind status s io w).history = true := by
    intro already
    simp [Conn.handled, Conn.log, upgraded, already]
  have later : 2 < c.state.rank := (State.rank_of_polls polls).1
  refine ⟨always_cons.mpr ⟨fun waiting => ?_, restraint.past⟩, now, restraint.later, fun listening => ?_,
    fun early => absurd early (by simp only [Conn.handled, Conn.log]; omega), fun state => ?_, ?_⟩
  · rcases queued with already | none | ⟨rfl, asks⟩
    · rw [already] at waiting
      cases waiting
    · exact .inl none
    · exact .inr ⟨rfl, asks⟩
  · rcases listens listening with before | ⟨rfl, rfl, consumed⟩
    · exact grown (restraint.listens before)
    · simp [Conn.handled, Conn.log, upgraded, consumed]
  · simp [Conn.handled, Conn.log, leaving, restraint.closing state]
  · intro _ leaves undone
    simp only [Conn.handled, Conn.log, dismissed, Bool.or_eq_false_iff] at undone
    cases status with
    | ok =>
        have leaves' : leaving c.history = true := by
          simpa [Conn.handled, Conn.log, leaving] using leaves
        exact grown (restraint.parts polls leaves' undone.2)
    | close => exact grown (word rfl)
    | error => simp at undone

theorem Restraint.connected {c : WsConn T K C indeterminate} (restraint : Restraint request c)
    (buffered : Buffered c) (polls : c.state.polls = true) {status : Protocol.Status}
    {s : Protocol.WebSocketSession C} {io : Io} {w : ω}
    (answered : Protocol.WebSocketSession.onConnect K c.session ⟨c.rx, c.tx⟩ c.world =
      some (status, s, io, w)) :
    Restraint request (c.handled .onConnect status s io w) := by
  simp only [Protocol.WebSocketSession.onConnect] at answered
  split at answered
  · cases answered
    exact restraint.handled polls restraint.now (.inr (.inl (c.tx.appended_self))) .inl (by simp)
  · rename_i room
    cases answered
    refine restraint.handled polls restraint.now (.inr (.inr ⟨rfl, ?_⟩)) (by simp) (by simp)
    rw [Buffer.appended_write tx_small buffered.tx (Nat.le_of_not_lt room)]
    exact restraint.now c.world

theorem Restraint.received {c : WsConn T K C indeterminate} (restraint : Restraint request c)
    (polls : c.state.polls = true) {status : Protocol.Status} {s : Protocol.WebSocketSession C}
    {io : Io} {w : ω}
    (answered : Protocol.WebSocketSession.onData K c.session ⟨c.rx, c.tx⟩ c.world =
      some (status, s, io, w)) :
    Restraint request (c.handled .onData status s io w) := by
  cases state : c.session.state with
  | idle =>
      unfold Protocol.WebSocketSession.onData at answered
      rw [state] at answered
      cases answered
      exact restraint.handled polls restraint.now (.inr (.inl (c.tx.appended_self))) .inl (by simp)
  | handshakeSent =>
      obtain ⟨unsaid, stays, next⟩ := Protocol.WebSocketSession.onData_sent state answered
      refine restraint.handled polls ?_ (.inr (.inl ?_)) (fun listening => .inr ?_)
        fun close => absurd close stays
      · rw [next]
        split
        · exact restraint.now
        · exact restraint.now
      · rw [unsaid]
        exact c.tx.appended_self
      · rw [next] at listening
        split at listening
        · rename_i accepted
          exact ⟨rfl, accepted.2, accepted.1⟩
        · rw [state] at listening
          cases listening
  | listening =>
      have already := restraint.listens state
      unfold Protocol.WebSocketSession.onData at answered
      rw [state] at answered
      exact restraint.handled polls
        (restraint.now.kept (Protocol.WebSocketSession.dispatchFrame_kept answered).1) (.inl already)
        (fun _ => .inl state) fun _ => already

theorem Restraint.shutDown {c : WsConn T K C indeterminate} (restraint : Restraint request c)
    (closing : c.state = .closeProtocol) (undone : dismissed c.history = false)
    {status : Protocol.Status} {s : Protocol.WebSocketSession C} {io : Io} {w : ω}
    (answered : Protocol.WebSocketSession.onShutdown K c.session ⟨c.rx, c.tx⟩ c.world =
      some (status, s, io, w)) :
    Restraint request (c.handled .onShutdown status s io w) := by
  have polls : c.state.polls = true := by rw [closing]; rfl
  have already := restraint.parts polls (restraint.closing closing) undone
  have kept := Protocol.WebSocketSession.onShutdown_kept answered
  exact restraint.handled polls (restraint.now.kept kept) (.inl already)
    (fun listening => .inl (kept.state ▸ listening)) fun _ => already

/-- `stop` finds an upgraded session, or one that is not fed. -/
theorem Restraint.stopped {c : WsConn T K C indeterminate} (restraint : Restraint request c)
    (patient : c.state = .protocol → upgraded c.history = true) :
    Restraint request (c.log (.enter .stop)) := by
  by_cases running : c.state = .protocol
  · refine ⟨always_cons.mpr ⟨fun _ => .inl rfl, restraint.past⟩, restraint.now, restraint.later,
      restraint.listens, fun early => ?_, fun state => ?_, fun _ _ _ => patient running⟩
    · rw [show (c.log (.enter .stop)).state = .protocol from running] at early
      exact absurd early (by decide)
    · rw [show (c.log (.enter .stop)).state = .protocol from running] at state
      cases state
  · exact restraint.grown rfl rfl rfl rfl rfl rfl (by simp [leaving, running]) rfl

theorem Step.restraint {c c' : WsConn T K C indeterminate} (step : Step N c c')
    (buffered : Buffered c) (cookie : c.cookie ≠ 0) (never : occurs hurries c'.history = false)
    (restraint : Restraint request c) : Restraint request c' := by
  have failed : ∀ {c : WsConn T K C indeterminate}, Restraint request c →
      Restraint request (c.enterError N) := fun r => (r.left (s := .error) (by decide)).torn
  have closed : Restraint request (c.enterClosed N) := (restraint.left (s := .closed) (by decide)).torn
  have early : c.state = .uninitialized ∨ c.state = .inProgress → c.state.rank < 3 := by
    rintro (state | state) <;> rw [state] <;> decide
  cases step with
  | enter entry =>
      cases entry with
      | stop =>
          refine restraint.stopped fun running => ?_
          simpa [hurries, running] using not_event_of_never List.suffix_rfl never
      | _ => exact restraint.grown rfl rfl rfl rfl rfl rfl rfl rfl
  | attach k unattached => exact absurd unattached cookie
  | restart => exact restraint.dialed
  | dialFailed => exact restraint.left (by decide)
  | dialPending fresh =>
      have pending : Restraint request (c.assign .inProgress) :=
        restraint.unfed rfl fun _ => early (.inl fresh)
      exact pending.grown rfl rfl rfl rfl rfl rfl rfl rfl
  | initFailed w fresh held =>
      have tried : Restraint request (c.notInitialised w) :=
        restraint.grown rfl rfl rfl rfl rfl rfl rfl rfl
      have released : c.initFailed N w = ((c.notInitialised w).assign .error).release N := if_pos held
      rw [released]
      exact (tried.left (by decide)).released
  | initHandshake e w fresh =>
      have made : Restraint request (c.initialised e w) :=
        restraint.grown rfl rfl rfl rfl rfl rfl rfl rfl
      exact made.unfed rfl fun _ => early fresh
  | initPlain e w fresh =>
      have made : Restraint request (c.initialised e w) :=
        restraint.grown rfl rfl rfl rfl rfl rfl rfl rfl
      have heard : Restraint request ((c.initialised e w).subscribe N true false) :=
        made.grown rfl rfl rfl rfl rfl rfl rfl rfl
      exact heard.begun (early fresh)
  | refused ret err w =>
      have polled : Restraint request (c.polled ret err w) :=
        restraint.grown rfl rfl rfl rfl rfl rfl rfl rfl
      exact failed polled
  | dropped | fail => exact failed restraint
  | overflow =>
      have logged : Restraint request (c.log (.overflow c.rx)) :=
        restraint.grown rfl rfl rfl rfl rfl rfl rfl rfl
      exact failed logged
  | enterProtocol shaking => exact restraint.begun (by rw [shaking]; decide)
  | handler kind f status s io w handles answered =>
      cases handles with
      | onConnect declared running first =>
          rw [← Option.some.inj declared] at answered
          exact restraint.connected buffered (by rw [running]; rfl) answered
      | onData running => exact restraint.received (by rw [running]; rfl) answered
      | onShutdown declared closing undone =>
          rw [← Option.some.inj declared] at answered
          exact restraint.shutDown closing undone answered
  | heartbeat f s tx w declared running answered attentive entered =>
      obtain ⟨h, history⟩ := List.head?_eq_some_iff.mp entered
      have waited : upgraded h = true := by
        have recorded : (c.state, Act.enter .heartbeat) :: h <:+
            (c.state, .heartbeat c.tx tx) :: c.history := by
          rw [history]
          exact List.suffix_cons _ _
        have event := not_event_of_never recorded never
        simpa [hurries, running] using event
      have already : upgraded c.history = true := by rw [history]; exact waited
      have same : s = c.protocol := by
        rw [← Option.some.inj declared] at answered
        exact (congrArg Prod.fst (Option.some.inj answered)).symm
      subst same
      refine ⟨always_cons.mpr ⟨fun waiting => ?_, restraint.past⟩, restraint.now, restraint.later,
        restraint.listens, restraint.silent, restraint.closing, restraint.parts⟩
      rw [already] at waiting
      cases waiting
  | closeProtocol running word undone =>
      refine ⟨(always_skip fun _ => .inl rfl).mpr restraint.past, restraint.now, restraint.later,
        restraint.listens, fun early => ?_, fun _ => word, fun _ => ?_⟩
      · exact absurd early (by simp [Conn.assign, State.rank])
      · exact restraint.parts (by rw [running]; rfl)
  | drainProtocol | closeTransport => exact restraint.left (by decide)
  | finish | stop => exact closed
  | clearRx => exact { restraint with }
  | _ => exact restraint.grown rfl rfl rfl rfl rfl rfl rfl rfl

/-- An upgrade request for `path` at `host`, with any key. -/
def isRequest (K : Protocol.Crypto ω) (host path : String) (extra : List Protocol.Header)
    (bytes : List UInt8) : Prop :=
  ∃ w, bytes = (Protocol.makeHandshake K host path extra w).1.upgradeRequest

/-- **Before the upgrade, TX carries the upgrade request and nothing else**: in every run of an
attached WebSocket connection in which neither `heartbeat` nor `stop` finds the session still
waiting, at every act recorded before the server's response was accepted in its epoch. -/
theorem only_the_request (transport : T.Within) (within : C.Within) (fuel k : Nat) (attached : k ≠ 0)
    (later : List Entry) (host : String) (port : UInt16) (tc : T.Config)
    (config : Protocol.WebSocketConfig C.Config) (w : ω) :
    let c := ((exec N fuel (.attach k :: later)).exec
      (Conn.make host port tc config w : WsConn T K C indeterminate)).2
    occurs hurries c.history = false →
      Always (restrained (isRequest K host config.path config.extra)) c.history := by
  have made : Restraint (isRequest K host config.path config.extra)
      (Conn.make host port tc config w : WsConn T K C indeterminate) :=
    ⟨always_nil, fun w => ⟨w, rfl⟩, fun w => ⟨w, rfl⟩, fun h => (by cases h), fun _ => rfl,
      fun h => (by cases h), fun h => (by cases h)⟩
  have entered : Restraint (isRequest K host config.path config.extra)
      { (Conn.make host port tc config w : WsConn T K C indeterminate).log (.enter (.attach k)) with
        cookie := k } := made.grown rfl rfl rfl rfl rfl rfl rfl rfl
  intro c never
  refine (attached_invariant transport (Protocol.webSocket_uses K within indeterminate).within
    (fun _ _ step => step.restraint) (fun last restraint => ?_) fuel attached later
    entered.dialed never).past
  have logged : Restraint (isRequest K host config.path config.extra) (last.log (.enter .destruct)) :=
    restraint.grown rfl rfl rfl rfl rfl rfl rfl rfl
  exact logged.torn

end WebSocket

/-- A frame is queued before the upgrade. -/
def premature (_ : State) (act : Act) (h : History) : Bool :=
  !upgraded h && !act.greets && act.queued ≠ []

theorem Always.never_premature {request : List UInt8 → Prop} {h : History}
    (all : Always (restrained request) h) : occurs premature h = false := by
  induction h with
  | nil => rfl
  | cons entry h ih =>
      obtain ⟨s, act⟩ := entry
      obtain ⟨last, older⟩ := always_cons.mp all
      simp only [occurs, Bool.or_eq_false_iff]
      refine ⟨?_, ih older⟩
      cases waiting : upgraded h
      · rcases last waiting with none | ⟨greets, -⟩
        · simp [premature, none]
        · simp [premature, greets]
      · simp [premature, waiting]

/-- The response arrives, then a heartbeat and a stop: the request of 143 bytes, a ping, a close. -/
theorem only_the_request_accepted :
    let c := ((exec scripted 9 [.attach 1, .handleEvent arrival, .heartbeat, .stop]).exec
      (webSocketConn { reads := [.ok Protocol.zeroResponse] })).2
    (c.state = .closed ∧
        (c.history.map fun entry => entry.2.queued.length).filter (· ≠ 0) = [8, 6, 143]) ∧
      Always (restrained (isRequest (Protocol.zeroCrypto : Protocol.Crypto Script) "host" "/" []))
        c.history := by
  constructor
  · decide +kernel
  · unfold webSocketConn
    exact only_the_request (Transport.plain_within scripted_bounded 1) parrot_within 9 1 (by decide)
      [.handleEvent arrival, .heartbeat, .stop] "host" 80 () rootConfig
      { reads := [.ok Protocol.zeroResponse] } (by decide +kernel)

/-- While the session waits for the response, a heartbeat queues a ping, and a stop a close. -/
theorem hurried_frames :
    (∀ request, ¬ Always (restrained request)
      ((exec scripted 9 [.attach 1, .heartbeat]).exec (webSocketConn {})).2.history) ∧
    ∀ request, ¬ Always (restrained request)
      ((exec scripted 9 [.attach 1, .stop]).exec (webSocketConn {})).2.history := by
  have ping : occurs premature
      ((exec scripted 9 [.attach 1, .heartbeat]).exec (webSocketConn {})).2.history = true := by
    decide +kernel
  have close : occurs premature
      ((exec scripted 9 [.attach 1, .stop]).exec (webSocketConn {})).2.history = true := by
    decide +kernel
  constructor
  · intro request all
    rw [all.never_premature] at ping
    cases ping
  · intro request all
    rw [all.never_premature] at close
    cases close

end Manet.Reactor
