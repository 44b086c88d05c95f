/-
# Manet.Reactor.Phase — the states only advance

`stateAfter` replays the assignments a history records, and `phaseOk` checks each
of them against the order of the states: forward or in place, out of `error` and
`closed` only by `restart`.

The code keeps to it except in three situations, which `strays` names: `_state` is
assigned over an `error` entered further down the call stack, `close_transport` is
left for `drain_protocol` by the second write of a closing handler's output, or a
connection that was attached with a null cookie is attached again.
-/
import Manet.Reactor.Lifecycle

namespace Manet.Reactor

open Manet.Flow Manet.Net Relation

set_option autoImplicit false

/-- The state the recorded assignments lead to. -/
def stateAfter : History → State
  | [] => .uninitialized
  | (_, .assign s) :: _ => s
  | (_, .begin) :: _ => .uninitialized
  | _ :: h => stateAfter h

def advances (s s' : State) : Bool := s = s' || s.rank < s'.rank

def restarting : History → Bool
  | (_, .enter .restart) :: _ => true
  | _ => false

def phaseOk : History → Bool
  | [] => true
  | (_, .assign s) :: h => advances (stateAfter h) s && phaseOk h
  | (_, .begin) :: h => (stateAfter h = .uninitialized || restarting h) && phaseOk h
  | _ :: h => phaseOk h

def strays (s : State) (act : Act) (h : History) : Bool :=
  overwrites s act h || retreats s act h ||
    match act with
    | .enter (.attach _) => s ≠ .uninitialized && !attached h
    | _ => false

variable {ω : Type} {N : Backend ω} {T : Transport.Layer ω} {P : Protocol.Layer ω}

/-- The recorded assignments lead to the state the connection is in. -/
def Recorded (c : Conn T P) : Prop := stateAfter c.history = c.state

theorem Step.recorded {c c' : Conn T P} (step : Step N c c') (recorded : Recorded c) :
    Recorded c' := by
  have torn : ∀ c : Conn T P, Recorded c → Recorded (c.teardown N) := by
    intro c recorded
    refine (Conn.teardown_unread N ?_ ?_ ?_ c).trans (recorded.trans (Conn.teardown_state N c).symm) <;>
      intros <;> rfl
  have dialed : ∀ c : Conn T P, Recorded (c.begin.dial N).2 := fun c =>
    Conn.dial_unread N (fun _ _ _ => rfl) (fun _ _ _ => rfl) c.begin
  cases step with
  | attach | restart => exact dialed _
  | initFailed w _ held =>
      exact (Conn.initFailed_unread N (fun _ _ => rfl) (fun _ _ _ => rfl) w held).trans
        (Conn.initFailed_state N c w).symm
  | refused | dropped | overflow | fail | finish | stop => exact torn _ rfl
  | dialFailed | dialPending | initHandshake | initPlain | enterProtocol | closeProtocol
  | drainProtocol | closeTransport => rfl
  | _ => exact recorded

theorem phaseOk_assign {c : Conn T P} (recorded : Recorded c) (ok : phaseOk c.history = true)
    {s : State} (forward : advances c.state s = true) : phaseOk (c.assign s).history = true := by
  have last : stateAfter c.history = c.state := recorded
  simp [Conn.assign, Conn.log, phaseOk, last, forward, ok]

theorem advances_terminal {s s' : State} (running : s.terminal = false) (done : s'.terminal = true) :
    advances s s' = true := by
  revert running done
  cases s <;> cases s' <;> simp [State.terminal, advances, State.rank]

theorem phaseOk_finished {c : Conn T P} (recorded : Recorded c) (ok : phaseOk c.history = true)
    (running : c.state.terminal = false) {s : State} (done : s.terminal = true) :
    phaseOk ((c.assign s).teardown N).history = true :=
  (Conn.teardown_unread N (fun _ _ => rfl) (fun _ _ => rfl) (fun _ _ _ => rfl) _).trans
    (phaseOk_assign recorded ok (advances_terminal running done))

theorem phaseOk_begun {c : Conn T P} (recorded : Recorded c) (ok : phaseOk c.history = true)
    (fresh : c.state = .uninitialized ∨ restarting c.history = true) :
    phaseOk (c.begin.dial N).2.history = true := by
  refine (Conn.dial_unread N (fun _ _ _ => rfl) (fun _ _ _ => rfl) c.begin).trans ?_
  have last : stateAfter c.history = c.state := recorded
  rcases fresh with fresh | restarts
  · simp [Conn.begin, Conn.log, phaseOk, last, fresh, ok]
  · simp [Conn.begin, Conn.log, phaseOk, restarts, ok]

/-- One step forward, or in place. -/
theorem Step.phaseOk {c c' : Conn T P} (step : Step N c c') (recorded : Recorded c)
    (unattached : c.cookie = 0 → attached c.history = false)
    (never : occurs strays c'.history = false) (ok : phaseOk c.history = true) :
    phaseOk c'.history = true := by
  have before : occurs strays c.history = false := never_of_suffix step.suffix never
  have kept : overwritten c.history = false :=
    never_mono (fun _ _ _ h => by simp [strays, h]) before
  have back : retreated c.history = false :=
    never_mono (fun _ _ _ h => by simp [strays, h]) before
  cases step with
  | attach k zero =>
      refine phaseOk_begun (c := { c.log (.enter (.attach k)) with cookie := k }) recorded ok (.inl ?_)
      have straight : strays c.state (.enter (.attach k)) c.history = false := by
        refine not_event_of_never ?_ never
        exact (List.suffix_cons _ _).trans (List.suffix_append (_ :: _) _)
      show c.state = .uninitialized
      simpa [strays, overwrites, retreats, unattached zero] using straight
  | restart _ _ entered =>
      refine phaseOk_begun (c := c.renew) recorded ok (.inr ?_)
      show restarting c.history = true
      rcases history : c.history with _ | ⟨first, older⟩
      · rw [history] at entered; cases entered
      · rw [history] at entered; cases entered; rfl
  | dialFailed fresh => exact phaseOk_assign recorded ok (by rw [fresh]; rfl)
  | dialPending fresh => exact phaseOk_assign recorded ok (by rw [fresh]; rfl)
  | initFailed w fresh held =>
      refine (Conn.initFailed_unread N (fun _ _ => rfl) (fun _ _ _ => rfl) w held).trans ?_
      refine phaseOk_assign (c := c.notInitialised w) recorded ok ?_
      rcases fresh with h | h <;> simp [Conn.notInitialised, Conn.log, h, advances, State.rank]
  | initHandshake e w fresh =>
      refine phaseOk_assign (c := c.initialised e w) recorded ok ?_
      rcases fresh with h | h <;> simp [Conn.initialised, Conn.log, h, advances, State.rank]
  | initPlain e w fresh =>
      refine phaseOk_assign (c := (c.initialised e w).subscribe N true false) recorded ok ?_
      rcases fresh with h | h <;>
        simp [Conn.subscribe, Conn.initialised, Conn.log, h, advances, State.rank]
  | refused ret err w waiting =>
      exact phaseOk_finished (c := c.polled ret err w) recorded ok
        (show c.state.terminal = false by rw [waiting]; rfl) rfl
  | dropped ev waiting => exact phaseOk_finished recorded ok (by rw [waiting]; rfl) rfl
  | overflow reading =>
      refine phaseOk_finished (c := c.log (.overflow c.rx)) recorded ok ?_ rfl
      exact State.running_of_connected (State.connected_of_flows (State.flows_of_reads reading))
  | fail connected => exact phaseOk_finished recorded ok (State.running_of_connected connected) rfl
  | finish closing => exact phaseOk_finished recorded ok (by rw [closing]; rfl) rfl
  | stop early =>
      refine phaseOk_finished recorded ok ?_ rfl
      rcases early with ⟨h, -⟩ | h <;> rw [h] <;> rfl
  | enterProtocol shaking => exact phaseOk_assign recorded ok (by rw [shaking]; rfl)
  | closeProtocol running => exact phaseOk_assign recorded ok (by rw [running]; rfl)
  | drainProtocol closing =>
      refine phaseOk_assign recorded ok ?_
      rcases closing with polls | ⟨-, lost⟩ | ⟨-, lost⟩
      · revert polls
        cases c.state <;> simp [State.polls, advances, State.rank]
      · rw [kept] at lost; cases lost
      · rw [back] at lost; cases lost
  | closeTransport closes =>
      refine phaseOk_assign recorded ok ?_
      rcases closes.closing with connected | lost
      · revert connected
        cases c.state <;> simp [State.connected, advances, State.rank]
      · rw [kept] at lost; cases lost
  | _ => exact ok

/-- What every step keeps. -/
structure Phased (c : Conn T P) : Prop where
  unattached : c.cookie = 0 → attached c.history = false
  recorded : Recorded c
  ok : occurs strays c.history = false → phaseOk c.history = true

theorem Step.phased {c c' : Conn T P} (step : Step N c c') (phased : Phased c) : Phased c' :=
  ⟨step.unattached phased.unattached, step.recorded phased.recorded, fun never =>
    step.phaseOk phased.recorded phased.unattached never
      (phased.ok (never_of_suffix step.suffix never))⟩

/-- The destructor assigns no phase. -/
theorem Phased.destructed {c : Conn T P} (phased : Phased c) :
    Phased ((c.log (.enter .destruct)).teardown N) := by
  refine ⟨fun fresh => ?_, ?_, fun never => ?_⟩
  · rw [Conn.teardown_cookie] at fresh
    refine (Conn.teardown_unread N ?_ ?_ ?_ _).trans (phased.unattached fresh)
    all_goals intros; rfl
  · refine (Conn.teardown_unread N ?_ ?_ ?_ _).trans
      (phased.recorded.trans (Conn.teardown_state N (c.log (.enter .destruct))).symm)
    all_goals intros; rfl
  · have older := phased.ok (never_of_suffix (Conn.destruct_suffix N c) never)
    refine (Conn.teardown_unread N ?_ ?_ ?_ _).trans older
    all_goals intros; rfl

/-- **Phases only advance.**  In every run without one of the three situations of
`strays`, every assignment to `_state` goes forward or stays, and `error` and `closed`
are left only by `restart`. -/
theorem states_advance (fuel : Nat) (entries : List Entry) (host : String) (port : UInt16)
    (tc : T.Config) (pc : P.Config) (w : ω) :
    let run := (exec N fuel entries).exec (Conn.make host port tc pc w : Conn T P)
    occurs strays run.2.history = false →
      phaseOk run.2.history = true ∧ stateAfter run.2.history = run.2.state := by
  intro run never
  have start : Phased (Conn.make host port tc pc w : Conn T P) :=
    ⟨fun _ => rfl, rfl, fun _ => rfl⟩
  have reached : Reached N _ entries run.1 run.2 :=
    exec_reached fuel entries (make_rest host port tc pc w)
  have phased := reached.invariant (fun _ _ step => step.phased) (fun _ => Phased.destructed) start
  exact ⟨phased.ok never, phased.recorded⟩

/-- A session that sends one byte and closes. -/
def farewell : Protocol.Layer ω where
  Config := Unit
  Session := Unit
  session _ _ _ := ()
  onConnect := some fun s io w => some (.close, s, { io with tx := io.tx.write [0] }, w)
  onData s io w := some (.ok, s, io, w)
  onShutdown := none
  heartbeat := none
  teardown := none

/-- A run that stays in order: the byte is taken, and the connection closes. -/
theorem states_advance_farewell :
    let run := (exec scripted 9 [.attach 1, .destruct]).exec (plainConn farewell () {})
    occurs strays run.2.history = false ∧ phaseOk run.2.history = true ∧
      stateAfter run.2.history = run.2.state := by
  intro run
  have never : occurs strays run.2.history = false := by decide +kernel
  exact ⟨never, states_advance (N := scripted) (T := Transport.plain scripted 1) (P := farewell)
    9 [.attach 1, .destruct] "host" 80 () () {} never⟩

/-- The byte's write fails: `error` is entered, and `bind_protocol` assigns
`close_transport` over it; the connection ends in `closed`. -/
theorem error_overwritten :
    let run := (exec scripted 9 [.attach 1]).exec
      (plainConn farewell () { writes := [.error .econnrefused] })
    run.1 = some () ∧ run.2.state = .closed ∧ phaseOk run.2.history = false := by
  decide +kernel

end Manet.Reactor
