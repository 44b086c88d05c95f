/-
# Manet.Reactor.Flushing — what is left unsent when the transport closes

`sending` reads TX off the history, and `flushedOk` asks that it be empty whenever
`close_transport` is entered by a connection that has come as far as `protocol`.

Four routes lead there.  Three of them pass through a flush: `step_drain_protocol`,
and `bind_protocol` with and without `on_shutdown`.  The fourth does not: `stop` on a
session without `on_shutdown` assigns `close_transport` at once.  And a flush of a
connection that has just failed counts as done, so that RX overflowing while draining
closes the transport with TX unsent.  Short of these two (`forsakes`), and of a transport
that reports the end of the connection, everything has been sent
(`sent_before_close`).
-/
import Manet.Reactor.Lifecycle

namespace Manet.Reactor

open Manet.Flow Manet.Net Relation

set_option autoImplicit false

/-- TX, as the last act that touched it left it. -/
def sending : History → Buffer TX_CAP
  | [] => .init
  | (_, .begin) :: h => (sending h).clear
  | (_, .write _ _ after) :: _ => after
  | (_, .handler _ _ _ after) :: _ => after.tx
  | (_, .heartbeat _ after) :: _ => after
  | _ :: h => sending h

/-- Whenever `close_transport` is entered past the handshake, TX is empty. -/
def flushedOk : History → Bool
  | [] => true
  | (s, .assign .closeTransport) :: h => (s = .transport || (sending h).rsize = 0) && flushedOk h
  | _ :: h => flushedOk h

/-- A `stop` while output is unsent and the session has no `on_shutdown`; or RX overflows
while draining. -/
def forsakes (shutsDown : Bool) (s : State) (act : Act) (h : History) : Bool :=
  match act with
  | .enter .stop => !shutsDown && s = .protocol && (sending h).rsize ≠ 0
  | .overflow _ => s = .drainProtocol
  | _ => false

variable {ω : Type} {N : Backend ω} {T : Transport.Layer ω} {P : Protocol.Layer ω}

/-! ## TX is what the history says -/

theorem sending_step {c c' : Conn T P} (step : Step N c c')
    (same : sending c.history = c.tx) : sending c'.history = c'.tx := by
  have torn : ∀ c : Conn T P, sending (c.teardown N).history = sending c.history :=
    Conn.teardown_unread N (fun _ _ => rfl) (fun _ _ => rfl) fun _ _ _ => rfl
  have dialed : ∀ c : Conn T P, sending c.history = c.tx →
      sending (c.begin.dial N).2.history = (c.begin.dial N).2.tx := by
    intro c same
    exact (Conn.dial_unread N (fun _ _ _ => rfl) (fun _ _ _ => rfl) c.begin).trans
      (congrArg Buffer.clear same)
  cases step with
  | attach k => exact dialed { c.log (.enter (.attach k)) with cookie := k } same
  | restart => exact dialed c.renew same
  | initFailed w _ held =>
      rw [Conn.initFailed_tx]
      exact (Conn.initFailed_unread N (f := sending) (fun _ _ => rfl) (fun _ _ _ => rfl) w held).trans
        same
  | refused | dropped | overflow | fail | finish | stop =>
      simp only [Conn.enterError, Conn.enterClosed, torn, Conn.teardown_tx]
      exact same
  | write | handler | heartbeat => rfl
  | _ => exact same

/-! ## Every way to `close_transport` -/

theorem overwritten_of_severed {h : History} {shutsDown : Bool} (whole : severed h = false)
    (kept : occurs (forsakes shutsDown) h = false) : overwritten h = false := by
  induction h with
  | nil => rfl
  | cons entry h ih =>
      obtain ⟨s, act⟩ := entry
      simp only [occurs, Bool.or_eq_false_iff] at whole kept ⊢
      refine ⟨?_, ih whole.2 kept.2⟩
      cases act with
      | write status =>
          cases status with
          | error => simp [cuts] at whole
          | _ => rfl
      | read status =>
          cases status with
          | error => simp [cuts] at whole
          | _ => rfl
      | overflow => exact kept.1
      | _ => rfl

/-- What every step keeps. -/
structure Flushes (c : Conn T P) : Prop where
  moored : Moored c
  same : sending c.history = c.tx
  ok : severed c.history = false → occurs (forsakes P.onShutdown.isSome) c.history = false →
    flushedOk c.history = true

theorem flushed_of_closes {c : Conn T P} (closes : Closes c) (flushes : Flushes c)
    (whole : severed c.history = false)
    (kept : occurs (forsakes P.onShutdown.isSome) c.history = false) :
    c.state = .transport ∨ c.tx.rsize = 0 := by
  have never := overwritten_of_severed whole kept
  cases closes with
  | flushed flowing empty =>
      exact .inr (empty (flushes.moored never (State.connected_of_flows flowing)))
  | severed _ cut =>
      have past : severed c.history = true := occurs_of_lately cut
      rw [whole] at past
      cases past
  | stopped entered early =>
      rcases early with shaking | ⟨running, missing⟩
      · exact .inl shaking
      · obtain ⟨older, history⟩ := List.head?_eq_some_iff.mp entered
        have same := flushes.same
        rw [history] at same
        rw [history] at kept
        simp only [occurs, Bool.or_eq_false_iff] at kept
        have sent := kept.1
        refine .inr ?_
        have now : sending older = c.tx := same
        simpa [forsakes, missing, running, now] using sent
  | lost _ _ lost =>
      rw [never] at lost
      cases lost

theorem Step.flushes {c c' : Conn T P} (step : Step N c c') (flushes : Flushes c) :
    Flushes c' := by
  refine ⟨step.moored flushes.moored, sending_step step flushes.same, fun whole kept => ?_⟩
  have whole' := never_of_suffix step.suffix whole
  have kept' := never_of_suffix step.suffix kept
  have ok := flushes.ok whole' kept'
  have torn : ∀ c : Conn T P, flushedOk (c.teardown N).history = flushedOk c.history :=
    Conn.teardown_unread N (fun _ _ => rfl) (fun _ _ => rfl) fun _ _ _ => rfl
  cases step with
  | attach | restart =>
      exact (Conn.dial_unread N (fun _ _ _ => rfl) (fun _ _ _ => rfl) _).trans ok
  | initFailed w _ held =>
      exact (Conn.initFailed_unread N (f := flushedOk) (fun _ _ => rfl) (fun _ _ _ => rfl) w held).trans ok
  | refused | dropped | overflow | fail | finish | stop =>
      simp only [Conn.enterError, Conn.enterClosed, torn]
      exact ok
  | closeTransport closes =>
      have empty := flushed_of_closes closes flushes whole' kept'
      rw [← flushes.same] at empty
      simp [Conn.assign, Conn.log, flushedOk, ok, empty]
  | _ => exact ok

/-- **A graceful close flushes.**  In every run in which no read or write reports the end of
the connection, no session without `on_shutdown` is stopped with output unsent and RX does
not overflow while draining: whenever `close_transport` is entered past the handshake, TX is
empty. -/
theorem sent_before_close (fuel : Nat) (entries : List Entry) (host : String) (port : UInt16)
    (tc : T.Config) (pc : P.Config) (w : ω) :
    let run := (exec N fuel entries).exec (Conn.make host port tc pc w : Conn T P)
    severed run.2.history = false → occurs (forsakes P.onShutdown.isSome) run.2.history = false →
      flushedOk run.2.history = true ∧ sending run.2.history = run.2.tx := by
  intro run whole kept
  have start : Flushes (Conn.make host port tc pc w : Conn T P) :=
    ⟨fun _ connected => (by cases connected), rfl, fun _ _ => rfl⟩
  have reached : Reached N _ entries run.1 run.2 :=
    exec_reached fuel entries (make_rest host port tc pc w)
  generalize run = final at whole kept reached
  obtain ⟨result, c⟩ := final
  cases reached with
  | alive path _ =>
      have flushes := path_invariant (R := Step N) (fun _ _ step => step.flushes) path start
      exact ⟨flushes.ok whole kept, flushes.same⟩
  | @destructed c₁ _ path _ torn _ =>
      subst torn
      have flushes := path_invariant (R := Step N) (fun _ _ step => step.flushes) path start
      have older := Conn.destruct_suffix N c₁
      have ok := flushes.ok (never_of_suffix older whole) (never_of_suffix older kept)
      rw [Conn.teardown_tx]
      constructor
      · exact (Conn.teardown_unread N (fun _ _ => rfl) (fun _ _ => rfl) (fun _ _ _ => rfl) _).trans ok
      · exact (Conn.teardown_unread N (fun _ _ => rfl) (fun _ _ => rfl) (fun _ _ _ => rfl) _).trans
          flushes.same

/-- A session that sends one byte when it is connected. -/
def greeter : Protocol.Layer ω where
  Config := Unit
  Session := Unit
  session _ _ _ := ()
  onConnect := some fun s io w => some (.ok, s, { io with tx := io.tx.write [0] }, w)
  onData s io w := some (.ok, s, io, w)
  onShutdown := none
  heartbeat := none
  teardown := none

/-- Stopped once the byte has been taken, the connection closes with nothing unsent. -/
theorem sent_before_close_greeter :
    let run := (exec scripted 9 [.attach 1, .stop]).exec (plainConn greeter () {})
    run.2.state = .closed ∧ flushedOk run.2.history = true ∧ sending run.2.history = run.2.tx := by
  intro run
  have whole : severed run.2.history = false := by decide +kernel
  have kept : occurs (forsakes false) run.2.history = false := by decide +kernel
  exact ⟨by decide +kernel, sent_before_close (N := scripted) (T := Transport.plain scripted 1)
    (P := greeter) 9 [.attach 1, .stop] "host" 80 () () {} whole kept⟩

/-- Stopped while the network takes nothing, it closes the transport over the unsent byte. -/
theorem stopped_unsent :
    let run := (exec scripted 9 [.attach 1, .stop]).exec
      (plainConn greeter () { writes := [.error .eagain] })
    run.1 = some () ∧ run.2.state = .closed ∧ severed run.2.history = false ∧
      flushedOk run.2.history = false ∧ run.2.tx.rsize = 1 := by
  decide +kernel

end Manet.Reactor
