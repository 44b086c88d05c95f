/-
# Manet.Reactor.Lifecycle — the life of an endpoint

An endpoint lives from a successful `Endpoint::init` to its `destroy`.  `live`
reads that off the history, and `endpointOk` checks every call against it: each
handshake, read, write, shutdown and destroy meets a living endpoint, and none is
still living when another one is made or a new epoch begins.

`teardown` asks only whether there is a descriptor, so the check fails when a
connection is torn down between dial and init, and after an answer that makes the
code assign `_state` over `error` and go on with the destroyed endpoint.  `Orderly`
excludes exactly those answers and calls; `endpoint_lifecycle` is that nothing else
breaks the discipline.
-/
import Manet.Reactor.Machine
import Manet.Net.Script

namespace Manet.Reactor

open Manet.Flow Manet.Net Relation

set_option autoImplicit false

def live : History → Bool
  | [] => false
  | (_, .init true) :: _ => true
  | (_, .destroy) :: _ => false
  | (_, .begin) :: _ => false
  | _ :: h => live h

/-- The calls made on an endpoint, returned from or not. -/
def Act.onEndpoint : Act → Bool
  | .handshakeStep _ | .read _ _ _ | .write _ _ _ | .shutdownStep _ | .destroy => true
  | .noReturn .handshakeStep | .noReturn (.read _) | .noReturn (.write _) | .noReturn .shutdownStep => true
  | _ => false

/-- The acts that must not find a living endpoint: it would be lost. -/
def Act.replacesEndpoint : Act → Bool
  | .init true | .begin => true
  | _ => false

def endpointOk : History → Bool
  | [] => true
  | (_, act) :: h =>
      endpointOk h && (!act.onEndpoint || live h) && (!act.replacesEndpoint || !live h)

/-- A teardown between dial and init; an answer after which `error` is overwritten;
or `attach(nullptr)` followed by another `attach` while connected. -/
def untimely (s : State) (act : Act) (h : History) : Bool :=
  match act with
  | .enter (.attach _) => s.connected && !attached h
  | .enter (.handleEvent ev) => s = .inProgress && !ev.writeable && (ev.error || ev.close)
  | .enter .stop | .enter .destruct => s = .inProgress
  | .net (.getsockopt _ ret err) => ret = -1 || err ≠ 0
  | act => overwrites s act h

abbrev Orderly (h : History) : Prop := occurs untimely h = false

theorem untimely_of_overwrites (s : State) (act : Act) (h : History)
    (lost : overwrites s act h = true) : untimely s act h = true := by
  cases act with
  | enter | net => cases lost
  | _ => exact lost

variable {ω : Type} {N : Backend ω} {T : Transport.Layer ω} {P : Protocol.Layer ω}

/-- The endpoint is there exactly in the connected states, and they hold a descriptor. -/
structure Owned (c : Conn T P) : Prop where
  ok : endpointOk c.history = true
  lives : live c.history = c.state.connected
  held : c.state.connected = true → c.fd ≠ -1

theorem live_cons {s : State} {act : Act} {h : History}
    (quiet : act.replacesEndpoint = false ∧ act ≠ .destroy) : live ((s, act) :: h) = live h := by
  cases act with
  | init ok => cases ok <;> simp_all [live, Act.replacesEndpoint]
  | begin => simp [Act.replacesEndpoint] at quiet
  | destroy => exact absurd rfl quiet.2
  | _ => rfl

/-- An act that neither makes nor destroys an endpoint, and uses one only where there
is one. -/
theorem Owned.logged {c c' : Conn T P} (owned : Owned c) {s : State} {act : Act}
    (logged : c'.history = (s, act) :: c.history) (same : c'.state.connected = c.state.connected)
    (fd : c'.fd = c.fd) (quiet : act.replacesEndpoint = false ∧ act ≠ .destroy)
    (used : act.onEndpoint = true → c.state.connected = true) : Owned c' := by
  refine ⟨?_, ?_, ?_⟩
  · rw [logged]
    simp only [endpointOk, owned.ok, quiet.1, owned.lives, Bool.true_and, Bool.not_false,
      Bool.true_or, Bool.and_true]
    cases uses : act.onEndpoint
    · rfl
    · simp [used uses]
  · rw [logged, live_cons quiet, same, owned.lives]
  · rw [same, fd]
    exact owned.held

/-- Tearing down a connection with a living endpoint destroys it, once. -/
theorem endpointOk_teardown {c : Conn T P} (held : c.fd ≠ -1) (ok : endpointOk c.history = true)
    (lives : live c.history = true) :
    endpointOk (c.teardown N).history = true ∧ live (c.teardown N).history = false := by
  have ok' : endpointOk c.sessionTeardown.history = true :=
    (Conn.sessionTeardown_unread (by simp [endpointOk, Act.onEndpoint, Act.replacesEndpoint]) c).trans ok
  have lives' : live c.sessionTeardown.history = true :=
    (Conn.sessionTeardown_unread (fun _ _ => rfl) c).trans lives
  rw [Conn.teardown_history N held]
  simp [endpointOk, live, Act.onEndpoint, Act.replacesEndpoint, ok', lives']

theorem State.connected_of_terminal {s : State} (terminal : s.terminal = true) :
    s.connected = false := by
  cases s <;> simp_all [State.terminal, State.connected]

theorem Owned.finished {c : Conn T P} (owned : Owned c) (connected : c.state.connected = true)
    {s : State} (terminal : s.terminal = true) : Owned ((c.assign s).teardown N) := by
  obtain ⟨ok, lives⟩ := endpointOk_teardown (N := N) (c := c.assign s) (owned.held connected)
    (by simpa [Conn.assign, Conn.log, endpointOk, Act.onEndpoint, Act.replacesEndpoint]
      using owned.ok)
    (by simpa [Conn.assign, Conn.log, live] using owned.lives.trans connected)
  have state : ((c.assign s).teardown N).state = s := Conn.teardown_state N _
  have quiet := State.connected_of_terminal terminal
  exact ⟨ok, by rw [state, quiet, lives], fun h => by rw [state, quiet] at h; cases h⟩

/-- A new epoch begins where there is no endpoint. -/
theorem Owned.begun {c : Conn T P} (owned : Owned c) (idle : c.state.connected = false) :
    Owned (c.begin.dial N).2 := by
  have ok : endpointOk c.begin.history = true := by
    simp [Conn.begin, Conn.log, endpointOk, Act.onEndpoint, owned.ok, owned.lives, idle]
  refine ⟨?_, ?_, fun h => by cases h⟩
  · refine (Conn.dial_unread N ?_ ?_ c.begin).trans ok <;>
      simp [endpointOk, Act.onEndpoint, Act.replacesEndpoint]
  · exact Conn.dial_unread N (fun _ _ _ => rfl) (fun _ _ _ => rfl) c.begin

theorem Owned.made {c : Conn T P} (owned : Owned c)
    (fresh : c.state = .uninitialized ∨ c.state = .inProgress) (held : c.fd ≠ -1)
    (e : T.Endpoint) (w : ω) {s : State} (connected : s.connected = true) :
    Owned ((c.initialised e w).assign s) := by
  have idle : live c.history = false := by
    rw [owned.lives]
    rcases fresh with h | h <;> rw [h] <;> rfl
  refine ⟨?_, ?_, fun _ => held⟩
  · simp [Conn.assign, Conn.initialised, Conn.log, endpointOk, Act.onEndpoint,
      Act.replacesEndpoint, owned.ok, idle]
  · exact connected.symm

theorem owned_initFailed {c : Conn T P} (owned : Owned c) (w : ω)
    (fresh : c.state = .uninitialized ∨ c.state = .inProgress) (held : c.fd ≠ -1) :
    Owned (c.initFailed N w) := by
  have idle : live c.history = false := by
    rw [owned.lives]
    rcases fresh with h | h <;> rw [h] <;> rfl
  refine ⟨?_, ?_, ?_⟩
  · refine (Conn.initFailed_unread N ?_ ?_ w held).trans ?_ <;>
      simp [Conn.assign, Conn.notInitialised, Conn.log, endpointOk, Act.onEndpoint,
        Act.replacesEndpoint, owned.ok]
  · rw [Conn.initFailed_state]
    exact (Conn.initFailed_unread N (f := live) (fun _ _ => rfl) (fun _ _ _ => rfl) w held).trans idle
  · rw [Conn.initFailed_state]
    intro h
    cases h

/-- What every step keeps. -/
structure Lifecycle (c : Conn T P) : Prop where
  grounded : Grounded c
  unattached : c.cookie = 0 → attached c.history = false
  owned : Orderly c.history → Owned c

theorem Step.owned {c c' : Conn T P} (step : Step N c c') (inv : Lifecycle c)
    (good : Orderly c'.history) : Owned c' := by
  have before : Orderly c.history := never_of_suffix step.suffix good
  have never : overwritten c.history = false := never_mono untimely_of_overwrites before
  have owned : Owned c := inv.owned before
  cases step with
  | attach k zero =>
      refine Owned.begun (c := { c.log (.enter (.attach k)) with cookie := k })
        (owned.logged rfl rfl rfl ⟨rfl, by simp⟩ fun h => by cases h) ?_
      have timely : untimely c.state (.enter (.attach k)) c.history = false := by
        refine not_event_of_never ?_ good
        exact (List.suffix_cons _ _).trans (List.suffix_append (_ :: _) _)
      show c.state.connected = false
      simpa [untimely, inv.unattached zero] using timely
  | restart done =>
      exact Owned.begun (c := c.renew) ⟨owned.ok, owned.lives, owned.held⟩
        (State.connected_of_terminal done)
  | dialFailed fresh =>
      exact owned.logged rfl (by rw [fresh]; rfl) rfl ⟨rfl, by simp⟩ fun h => by cases h
  | dialPending fresh =>
      have assigned : Owned (c.assign .inProgress) :=
        owned.logged rfl (by rw [fresh]; rfl) rfl ⟨rfl, by simp⟩ fun h => by cases h
      exact assigned.logged rfl rfl rfl ⟨rfl, by simp⟩ fun h => by cases h
  | initFailed w fresh held => exact owned_initFailed owned w fresh held
  | initHandshake e w fresh held => exact owned.made fresh held e w rfl
  | initPlain e w fresh held =>
      have made : Owned ((c.initialised e w).assign .protocol) := owned.made fresh held e w rfl
      exact ⟨by simpa [Conn.assign, Conn.subscribe, Conn.log, endpointOk, Act.onEndpoint,
        Act.replacesEndpoint] using made.ok, made.lives, made.held⟩
  | refused ret err w waiting _ failed =>
      have timely : untimely c.state (.net (.getsockopt c.fd ret err)) c.history = false :=
        not_event_of_never ((List.suffix_cons _ _).trans
          (Conn.teardown_suffix N ((c.polled ret err w).assign .error))) good
      simp only [untimely, Bool.or_eq_false_iff, decide_eq_false_iff_not] at timely
      exact absurd failed (not_or.mpr timely)
  | dropped ev waiting entered failed =>
      obtain ⟨older, recorded⟩ := head_suffix entered
      have timely := not_event_of_never recorded before
      rcases failed with ⟨writeable, error | close⟩ <;> simp_all [untimely]
  | stop early entered =>
      obtain ⟨older, recorded⟩ := head_suffix entered
      have timely := not_event_of_never recorded before
      rcases early with ⟨fresh, idle⟩ | waiting
      · have torn : c.enterClosed N = c.assign .closed :=
          Conn.teardown_idle N (show (c.assign .closed).fd = -1 from idle)
        rw [torn]
        exact owned.logged rfl (by rw [fresh]; rfl) rfl ⟨rfl, by simp⟩ fun h => by cases h
      · simp [untimely, waiting] at timely
  | handshake _ _ _ _ _ shaking =>
      exact owned.logged rfl rfl rfl ⟨rfl, by simp⟩ fun _ => by rw [shaking]; rfl
  | enterProtocol shaking =>
      exact owned.logged rfl (by rw [shaking]; rfl) rfl ⟨rfl, by simp⟩ fun h => by cases h
  | read _ _ _ _ reading =>
      exact owned.logged rfl rfl rfl ⟨rfl, by simp⟩ fun _ =>
        State.connected_of_flows (State.flows_of_reads reading)
  | overflow reading =>
      have logged : Owned (c.log (.overflow c.rx)) :=
        owned.logged rfl rfl rfl ⟨rfl, by simp⟩ fun h => by cases h
      exact logged.finished (State.connected_of_flows (State.flows_of_reads reading)) rfl
  | write _ _ _ _ flowing =>
      exact owned.logged rfl rfl rfl ⟨rfl, by simp⟩ fun _ => State.connected_of_flows flowing
  | closeProtocol running =>
      exact owned.logged rfl (by rw [running]; rfl) rfl ⟨rfl, by simp⟩ fun h => by cases h
  | drainProtocol closing =>
      have connected : c.state.connected = true := by
        rcases closing with polls | ⟨-, lost⟩ | ⟨closed, -⟩
        · exact State.connected_of_flows (State.flows_of_polls polls)
        · rw [never] at lost; cases lost
        · rw [closed]; rfl
      exact owned.logged rfl connected.symm rfl ⟨rfl, by simp⟩ fun h => by cases h
  | closeTransport closes =>
      have connected : c.state.connected = true := by
        rcases closes.closing with connected | lost
        · exact connected
        · rw [never] at lost; cases lost
      exact owned.logged rfl connected.symm rfl ⟨rfl, by simp⟩ fun h => by cases h
  | shutdown _ _ _ _ _ closing =>
      exact owned.logged rfl rfl rfl ⟨rfl, by simp⟩ fun _ => by rw [closing]; rfl
  | fail connected => exact owned.finished connected rfl
  | finish closing => exact owned.finished (by rw [closing]; rfl) rfl
  | clearRx => exact ⟨owned.ok, owned.lives, owned.held⟩
  | noReturn callee permitted =>
      refine owned.logged rfl rfl rfl ⟨rfl, by simp⟩ ?_
      cases callee with
      | handshakeStep => exact fun _ => by rw [permitted]; rfl
      | read => exact fun _ => State.connected_of_flows (State.flows_of_reads permitted.1)
      | write => exact fun _ => State.connected_of_flows permitted.1
      | shutdownStep => exact fun _ => by rw [permitted]; rfl
      | handler | heartbeat => exact fun h => by cases h
  | enter | polled | subscribe | handler | heartbeat | unreachable =>
      exact owned.logged rfl rfl rfl ⟨rfl, by simp⟩ fun h => by cases h

theorem path_lifecycle {c c' : Conn T P} (path : ReflTransGen (Step N) c c') :
    Lifecycle c → Lifecycle c' :=
  path_invariant (R := Step N) (fun _ _ step inv =>
    ⟨step.grounded inv.grounded, step.unattached inv.unattached, step.owned inv⟩) path

theorem make_lifecycle (host : String) (port : UInt16) (tc : T.Config) (pc : P.Config) (w : ω) :
    Lifecycle (Conn.make host port tc pc w : Conn T P) :=
  ⟨fun _ => rfl, fun _ => rfl, fun _ => ⟨rfl, rfl, fun h => by cases h⟩⟩

/-- The destructor, on a connection at rest. -/
theorem destruct_lifecycle {c : Conn T P} (inv : Lifecycle c) (rest : Rest c)
    (good : Orderly ((c.log (.enter .destruct)).teardown N).history) :
    endpointOk ((c.log (.enter .destruct)).teardown N).history = true ∧
      live ((c.log (.enter .destruct)).teardown N).history = false := by
  have entered := never_of_suffix (Conn.teardown_suffix N _) good
  have timely : untimely c.state (.enter .destruct) c.history = false :=
    not_event_of_never List.suffix_rfl entered
  have owned : Owned (c.log (.enter .destruct)) :=
    (inv.owned (never_of_suffix (List.suffix_cons _ _) entered)).logged rfl rfl rfl
      ⟨rfl, by simp⟩ fun h => by cases h
  by_cases held : c.fd = -1
  · rw [Conn.teardown_idle N (show (c.log (.enter .destruct)).fd = -1 from held)]
    refine ⟨owned.ok, ?_⟩
    rw [owned.lives]
    by_contra connected
    exact owned.held (by simpa using connected) held
  · refine endpointOk_teardown held owned.ok (owned.lives.trans ?_)
    -- a descriptor at rest is held in `in_progress` or by a connected state
    have terminal : c.state.terminal ≠ true := fun done => held (rest.grounded done)
    have unborn : c.state ≠ .uninitialized := fun fresh => held (rest.unborn fresh)
    show c.state.connected = true
    cases state : c.state <;> simp_all [State.connected, State.terminal, untimely]

/-- **The endpoint's life.**  In every run that is orderly, every call on an endpoint is
on one that `init` made in this epoch and that is not destroyed yet, no endpoint is lost,
and after the destructor none is left. -/
theorem endpoint_lifecycle (fuel : Nat) (entries : List Entry) (host : String) (port : UInt16)
    (tc : T.Config) (pc : P.Config) (w : ω) :
    let run := (exec N fuel entries).exec (Conn.make host port tc pc w : Conn T P)
    Orderly run.2.history →
      endpointOk run.2.history = true ∧
        (run.1 = some () → .destruct ∈ entries → live run.2.history = false) := by
  intro run good
  have start := make_lifecycle (T := T) (P := P) host port tc pc w
  have reached : Reached N _ entries run.1 run.2 :=
    exec_reached fuel entries (make_rest host port tc pc w)
  generalize run = final at good reached
  obtain ⟨result, c⟩ := final
  cases reached with
  | alive path rest =>
      exact ⟨((path_lifecycle path start).owned good).ok,
        fun returned member => absurd member (rest returned).2⟩
  | destructed path rest torn _ =>
      subst torn
      obtain ⟨ok, dead⟩ := destruct_lifecycle (path_lifecycle path start) rest good
      exact ⟨ok, fun _ _ => dead⟩

/-- A session that says nothing. -/
def mute : Protocol.Layer ω where
  Config := Unit
  Session := Unit
  session _ _ _ := ()
  onConnect := none
  onData s io w := some (.ok, s, io, w)
  onShutdown := none
  heartbeat := none
  teardown := none

/-- A connection over the plain transport and a scripted network. -/
abbrev plainConn (P : Protocol.Layer Script) (pc : P.Config) (script : Script) :
    Conn (Transport.plain scripted 1) P :=
  Conn.make "host" 80 () pc script

/-- An orderly run: it connects, is stopped, and is destructed. -/
theorem endpoint_lifecycle_orderly :
    let run := (exec scripted 9 [.attach 1, .stop, .destruct]).exec (plainConn mute () {})
    Orderly run.2.history ∧ endpointOk run.2.history = true ∧ live run.2.history = false := by
  intro run
  have good : Orderly run.2.history := by decide +kernel
  have returned : run.1 = some () := by decide +kernel
  have held := endpoint_lifecycle (N := scripted) (T := Transport.plain scripted 1) (P := mute)
    9 [.attach 1, .stop, .destruct] "host" 80 () () {} good
  exact ⟨good, held.1, held.2 returned (by decide)⟩

/-- The connection closes and is restarted, and is stopped again while the second
connect is still in progress: the endpoint of the first epoch is destroyed twice. -/
theorem endpoint_destroyed_twice :
    let run := (exec scripted 9 [.attach 1, .stop, .restart, .stop]).exec
      (plainConn mute () { connects := [⟨0, .other 0⟩, pending] })
    run.1 = some () ∧ endpointOk run.2.history = false := by
  decide +kernel

end Manet.Reactor
