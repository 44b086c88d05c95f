/-
# Manet.Reactor.Interest — no lost wake-up

With edge-triggered events a connection that returns to the reactor must have
registered for the event it waits for.  `Adequate` says what that is, state by state;
`no_lost_wakeup` that it holds after every call, for every transport and protocol.

A connection that drains hears of room to write as long as it has something to send.
That it has something is up to the transport: one that takes everything and still asks
for an event can leave the connection in `drain_protocol` with nothing to send and no
interest in writing (`drained_and_deaf`), one that leaves something unsent whenever it
asks (`Keeps`) cannot.
-/
import Manet.Reactor.Lifecycle

namespace Manet.Reactor

open Manet.Flow Manet.Net Relation

set_option autoImplicit false

variable {ω : Type} {N : Backend ω} {T : Transport.Layer ω} {P : Protocol.Layer ω}

/-- The last subscription for `_fd` includes the event the state waits for. -/
def Adequate (c : Conn T P) : Prop :=
  match c.state with
  | .uninitialized => False
  | .inProgress => Wakes c false true
  | .transport | .closeTransport =>
      (asked c.history = some .wantRead → Wakes c true false) ∧
        (asked c.history = some .wantWrite → Wakes c false true)
  | .protocol | .closeProtocol => Wakes c true (c.tx.rsize ≠ 0)
  | .drainProtocol => (T.Keeps → c.tx.rsize ≠ 0) ∧ Wakes c false (c.tx.rsize ≠ 0)
  | .closed | .error => True

theorem Rest.adequate {c : Conn T P} (rest : Rest c) (held : c.fd ≠ -1) : Adequate c := by
  have polling := rest.polling held
  have stepping := rest.stepping
  have draining := rest.draining
  unfold Adequate
  cases state : c.state <;> rw [state] at polling stepping draining
  case uninitialized => exact held (rest.unborn state)
  case inProgress => exact (rest.connecting state).2
  case transport => exact stepping (.inl rfl)
  case closeTransport => exact stepping (.inr rfl)
  case protocol => exact polling rfl
  case closeProtocol => exact polling rfl
  case drainProtocol => exact draining rfl
  all_goals trivial

/-- **No lost wake-up.**  After any calls, and one more call that returns with a live
descriptor, the last subscription is adequate.  If that call took the machine further
and it waits in the transport's handshake or shutdown, the last such step did ask for
an event. -/
theorem no_lost_wakeup (fuel : Nat) (entries : List Entry) (call : Entry)
    (host : String) (port : UInt16) (tc : T.Config) (pc : P.Config) (w : ω)
    (alive : .destruct ∉ entries) (further : call ≠ .destruct) :
    let run := (exec N fuel entries).exec (Conn.make host port tc pc w : Conn T P)
    let next := (enter N fuel call).exec run.2
    run.1 = some () → next.1 = some () → next.2.fd ≠ -1 →
      Adequate next.2 ∧
        (call.effective run.2 → next.2.state = .transport ∨ next.2.state = .closeTransport →
          asked next.2.history = some .wantRead ∨ asked next.2.history = some .wantWrite) := by
  intro run next returned returned' held
  have reached : Reached N _ entries run.1 run.2 :=
    exec_reached fuel entries (make_rest host port tc pc w)
  have rest : Rest run.2 := by
    generalize run = final at returned reached
    obtain ⟨result, c⟩ := final
    cases reached with
    | alive _ rest => exact (rest returned).1
    | destructed _ _ _ member => exact absurd member alive
  obtain ⟨rest', settled⟩ := (enter_runs fuel call further rest).2 () returned'
  refine ⟨rest'.adequate held, fun effective stepping => ?_⟩
  rcases (settled effective).stepping stepping with ⟨answer, -⟩ | ⟨answer, -⟩
  · exact .inl answer
  · exact .inr answer

/-- A session that answers a shutdown with one byte. -/
def parting : Protocol.Layer ω where
  Config := Unit
  Session := Unit
  session _ _ _ := ()
  onConnect := none
  onData s io w := some (.ok, s, io, w)
  onShutdown := some fun s io w => some (.close, s, { io with tx := io.tx.write [0] }, w)
  heartbeat := none
  teardown := none

/-- The byte cannot be written yet: the connection drains, and hears of room to write. -/
theorem no_lost_wakeup_draining :
    let run := (exec scripted 9 [.attach 1]).exec
      (plainConn parting () { writes := [.error .eagain] })
    let next := (enter scripted 9 .stop).exec run.2
    next.2.state = .drainProtocol ∧ next.2.tx.rsize ≠ 0 ∧ Wakes next.2 false true := by
  intro run next
  have returned : run.1 = some () := by decide +kernel
  have stopped : next.1 = some () := by decide +kernel
  have held : next.2.fd ≠ -1 := by decide +kernel
  have state : next.2.state = .drainProtocol := by decide +kernel
  have adequate := (no_lost_wakeup (N := scripted) (T := Transport.plain scripted 1) (P := parting)
    9 [.attach 1] .stop "host" 80 () () { writes := [.error .eagain] } (by decide) (by decide)
    returned stopped held).1
  unfold Adequate at adequate
  rw [state] at adequate
  obtain ⟨unsent, wakes⟩ := adequate
  have some := unsent (Transport.plain_keeps scripted 1)
  rw [decide_eq_true some] at wakes
  exact ⟨state, some, wakes⟩

/-- A transport that takes everything and asks to be read from. -/
def greedy : Transport.Layer ω where
  Config := Unit
  Endpoint := Unit
  blank := ()
  init _ _ w := (some (), w)
  handshakeStep := none
  read e rx w := some (.wantRead, e, rx, w)
  write e tx w := some (.wantRead, e, tx.clear, w)
  shutdownStep := none
  destroy e w := (e, w)

/-- Over such a transport a stopped connection rests in `drain_protocol` with nothing to
send and without interest in writing. -/
theorem drained_and_deaf :
    let run := (exec scripted 9 [.attach 1, .stop]).exec
      (Conn.make "host" 80 () () {} : Conn greedy parting)
    run.1 = some () ∧ run.2.fd = 3 ∧ run.2.state = .drainProtocol ∧ run.2.tx.rsize = 0 ∧
      interest 3 run.2.history = some (true, false) := by
  decide +kernel

end Manet.Reactor
