/-
# Manet.Reactor.Settling — no call leaves `close_transport` untouched

Once `close_transport` is entered the transport has to be shut down.  Every call that runs
`steps()` does it: the last turn of the loop that ends there is `step_close_transport` itself
(`steps_closing`).  `attach` on an attached connection and `restart` on a running one change
nothing.  The call in between is `heartbeat()`, which writes and returns: a write that is
answered `close` there (`hangs`) leaves the connection in `close_transport` until something
else calls it (`hung_up`).  In every run without one, no call does (`calls_settle`).
-/
import Manet.Reactor.Lifecycle
import Manet.Transport.Tls

namespace Manet.Reactor

open Manet.Flow Manet.Net Relation

set_option autoImplicit false

variable {ω : Type} {N : Backend ω} {O : Prop} {T : Transport.Layer ω} {P : Protocol.Layer ω}

/-! ## Reading the history -/

/-- `shutdown_step` has been called since `close_transport` was entered. -/
def attempted : History → Bool
  | [] => false
  | (_, .shutdownStep _) :: _ => true
  | (_, .assign .closeTransport) :: _ => false
  | _ :: h => attempted h

/-- The call from outside that is going on, or was the last. -/
def lastEntry : History → Option Entry
  | [] => none
  | (_, .enter entry) :: _ => some entry
  | _ :: h => lastEntry h

/-- A write of `heartbeat()` is answered `close`. -/
def hangs (_ : State) (act : Act) (h : History) : Bool :=
  match act with
  | .write .close _ _ => lastEntry h = some .heartbeat
  | _ => false

/-- In `close_transport` the transport has a shutdown, and it has been attempted. -/
def Closing (c : Conn T P) : Prop :=
  c.state = .closeTransport → T.shutdownStep.isSome = true ∧ attempted c.history = true

theorem closing_of_ne {c : Conn T P} (other : c.state ≠ .closeTransport) : Closing c :=
  fun state => absurd state other

/-! ## `steps` -/

theorem stepCloseTransport_closing {c : Conn T P} (closing : c.state = .closeTransport) :
    Runs (Move N O) (stepCloseTransport N) c fun _ c' => Closing c' := by
  have closed : ∀ c : Conn T P, Closing (c.enterClosed N) := by
    intro c
    apply closing_of_ne
    rw [Conn.enterClosed_state]
    simp
  have failed : ∀ c : Conn T P, Closing (c.enterError N) := by
    intro c
    apply closing_of_ne
    rw [Conn.enterError_state]
    simp
  unfold stepCloseTransport
  rcases declared : T.shutdownStep with _ | f
  · exact runs_modify (.finish c closing) (closed c)
  refine (endpointShutdownStep_runs declared closing).bind ?_
  rintro status _ - ⟨e, w, rfl⟩
  have state : (c.didShutdown status e w).state = .closeTransport := closing
  cases status with
  | ok => exact runs_modify (.finish _ state) (closed _)
  | close | error => exact runs_modify (.fail _ (by rw [state]; rfl) (by simp [state])) (failed _)
  | wantRead | wantWrite =>
      refine (arm_runs (by simp)).weaken ?_
      rintro - _ - ⟨r, w', rfl, -⟩
      intro _
      exact ⟨by rw [declared]; rfl, rfl⟩

/-- The last turn of `steps`: in any other state than `close_transport` it stays there, and there
it has attempted the shutdown. -/
theorem stepsTurn_closing {fuel : Nat} {ev : Option Event} {c c' : Conn T P}
    (returned : (stepsTurn N fuel ev).exec c = (some (some ()), c')) : Closing c' := by
  obtain ⟨same, taken⟩ := stepsTurn_returns returned
  intro state
  have closing : c.state = .closeTransport := same.symm.trans state
  have executed := taken (stepCloseTransport N) (by rw [closing]; rfl)
  have post := (stepCloseTransport_closing (N := N) (O := True) closing).2 ()
  rw [executed] at post
  exact post rfl state

/-- **Where `steps` returns, the shutdown has been attempted.** -/
theorem steps_closing {fuel : Nat} {ev : Option Event} {c c' : Conn T P}
    (returned : (steps N fuel ev).exec c = (some (), c')) : Closing c' := by
  obtain ⟨c₁, -, last⟩ := Prog.exec_iterate_returns (fun _ => True) (fun _ _ _ _ => trivial) fuel c
    trivial returned
  exact stepsTurn_closing last

/-! ## The calls -/

theorem afterDial_closing {fuel : Nat} {result : DialResult} {c c' : Conn T P}
    (returned : (afterDial N fuel result).exec c = (some (), c')) : Closing c' := by
  unfold afterDial at returned
  split at returned
  · cases returned
    exact closing_of_ne (by simp [Conn.assign])
  split at returned
  · cases returned
    exact closing_of_ne (by simp [Conn.subscribe, Conn.assign, Conn.log])
  · obtain ⟨-, c₁, -, later⟩ := Prog.exec_bind_returns returned
    exact steps_closing later

theorem stop_closing {fuel : Nat} {c c' : Conn T P}
    (returned : (stop N fuel).exec c = (some (), c')) : Closing c' := by
  unfold stop at returned
  rw [Prog.exec_get_bind] at returned
  obtain ⟨-, c₁, -, later⟩ := Prog.exec_bind_returns returned
  exact steps_closing later

/-- A call that is only recorded. -/
theorem Closing.entered {c : Conn T P} (closing : Closing c) (entry : Entry) :
    Closing (c.log (.enter entry)) := closing

/-! ## `heartbeat` -/

/-- The state is `close_transport` only after a write that left it there. -/
def Hangs (c : Conn T P) : Prop := c.state = .closeTransport → occurs hangs c.history = true

theorem hangs_of_ne {c : Conn T P} (other : c.state ≠ .closeTransport) : Hangs c :=
  fun state => absurd state other

theorem sessionHeartbeat_returns
    {f : P.Session → Buffer TX_CAP → ω → Option (P.Session × Buffer TX_CAP × ω)} {c c' : Conn T P}
    (returned : (sessionHeartbeat f : Method T P _).exec c = (some (), c')) :
    ∃ s tx w, c' = c.beaten s tx w := by
  unfold sessionHeartbeat at returned
  rw [Prog.exec_get_bind] at returned
  split at returned
  · cases returned
  · cases returned
    exact ⟨_, _, _, rfl⟩

theorem endpointWrite_returns {c c' : Conn T P} {status : Transport.Status}
    (returned : (endpointWrite : Method T P _).exec c = (some status, c')) :
    ∃ e tx w, c' = c.didWrite status e tx w := by
  unfold endpointWrite at returned
  rw [Prog.exec_get_bind] at returned
  split at returned
  · cases returned
  · cases returned
    exact ⟨_, _, _, rfl⟩

/-- Arming never enters `close_transport`. -/
theorem arm_hangs {status : Transport.Status} {c c' : Conn T P} (running : c.state = .protocol)
    (returned : (arm N status).exec c = (some (), c')) : Hangs c' := by
  apply hangs_of_ne
  cases status with
  | ok | close | wantRead | wantWrite =>
      cases returned
      simp [Conn.subscribe, Conn.log, running]
  | error =>
      cases returned
      simp [Conn.enterError_state]

/-- A turn of the loop in `transport_write`, called from `heartbeat`. -/
theorem writeTurn_hangs {c c' : Conn T P} {result : Option Bool} (running : c.state = .protocol)
    (beating : lastEntry c.history = some .heartbeat)
    (returned : (writeTurn N).exec c = (some result, c')) :
    Turn (fun c' => c'.state = .protocol ∧ lastEntry c'.history = some .heartbeat)
      (fun _ c' => Hangs c') result c' := by
  unfold writeTurn at returned
  rw [Prog.exec_get_bind] at returned
  split at returned
  · cases returned
    exact hangs_of_ne (by simp [running])
  obtain ⟨status, _, written, returned⟩ := Prog.exec_bind_returns returned
  obtain ⟨e, tx, w, rfl⟩ := endpointWrite_returns written
  have running' : (c.didWrite status e tx w).state = .protocol := running
  rw [Prog.exec_get_bind] at returned
  split at returned
  · rename_i closes
    obtain ⟨rfl, -⟩ := closes
    cases returned
    intro _
    simp [Conn.assign, Conn.log, Conn.didWrite, occurs, hangs, beating]
  split at returned
  · obtain ⟨u, c₂, armed, last⟩ := Prog.exec_bind_returns returned
    cases last
    exact arm_hangs running' armed
  split at returned
  · obtain ⟨u, c₂, armed, last⟩ := Prog.exec_bind_returns returned
    cases last
    exact arm_hangs running' armed
  · cases returned
    exact ⟨running', beating⟩

theorem transportWrite_hangs {fuel : Nat} {c c' : Conn T P} {flushed : Bool}
    (running : c.state = .protocol) (beating : lastEntry c.history = some .heartbeat)
    (returned : (transportWrite N fuel).exec c = (some flushed, c')) : Hangs c' := by
  unfold transportWrite at returned
  obtain ⟨sent, c₁, loop, later⟩ := Prog.exec_bind_returns returned
  obtain ⟨c₂, inv, last⟩ := Prog.exec_iterate_returns
    (fun c : Conn T P => c.state = .protocol ∧ lastEntry c.history = some .heartbeat)
    (fun _ _ inv turn => writeTurn_hangs inv.1 inv.2 turn) fuel c ⟨running, beating⟩ loop
  have hung : Hangs c₁ := writeTurn_hangs inv.1 inv.2 last
  cases sent with
  | false =>
      cases later
      exact hung
  | true =>
      rw [if_pos rfl, Prog.exec_get_bind] at later
      split at later
      · cases later
        exact hung
      · cases later
        exact hung

/-- `heartbeat` comes to `close_transport` only on such a write. -/
theorem heartbeat_hangs {fuel : Nat} {c c' : Conn T P} (closing : Closing c)
    (beating : lastEntry c.history = some .heartbeat)
    (returned : (heartbeat N fuel).exec c = (some (), c')) (never : occurs hangs c'.history = false) :
    Closing c' := by
  unfold heartbeat at returned
  split at returned
  · cases returned
    exact closing
  rw [Prog.exec_get_bind] at returned
  split at returned
  swap
  · cases returned
    exact closing
  rename_i f _ running
  obtain ⟨u, c₁, beaten, later⟩ := Prog.exec_bind_returns returned
  obtain ⟨s, tx, w, rfl⟩ := sessionHeartbeat_returns beaten
  obtain ⟨flushed, c₂, written, last⟩ := Prog.exec_bind_returns later
  cases last
  intro state
  have hung := transportWrite_hangs (c := c.beaten s tx w) running beating written state
  rw [never] at hung
  cases hung

/-! ## Runs -/

/-- **One call** leaves `close_transport` only with the shutdown attempted. -/
theorem enter_closing {fuel : Nat} {entry : Entry} (alive : entry ≠ .destruct) {c c' : Conn T P}
    (closing : Closing c) (returned : (enter N fuel entry).exec c = (some (), c'))
    (never : occurs hangs c'.history = false) : Closing c' := by
  unfold enter at returned
  rw [Prog.exec_modify_bind] at returned
  cases entry with
  | attach k =>
      simp only [attach, Prog.exec_get_bind] at returned
      split at returned
      · cases returned
        exact closing.entered _
      · simp only [Prog.exec_modify_bind, enterUninitialized, Prog.exec_get_bind] at returned
        exact afterDial_closing returned
  | handleEvent ev => exact steps_closing returned
  | heartbeat => exact heartbeat_hangs (closing.entered .heartbeat) rfl returned never
  | stop => exact stop_closing returned
  | restart =>
      simp only [restart, Prog.exec_get_bind] at returned
      split at returned
      · simp only [Prog.exec_modify_bind, enterUninitialized, Prog.exec_get_bind] at returned
        exact afterDial_closing returned
      · cases returned
        exact closing.entered _
  | destruct => exact absurd rfl alive

/-- **Any calls**, one after the other. -/
theorem exec_closing {fuel : Nat} {entries : List Entry} (alive : .destruct ∉ entries)
    {c c' : Conn T P} (rest : Rest c) (closing : Closing c)
    (returned : (exec N fuel entries).exec c = (some (), c'))
    (never : occurs hangs c'.history = false) : Closing c' := by
  induction entries generalizing c with
  | nil =>
      cases returned
      exact closing
  | cons entry later ih =>
      obtain ⟨other, alive'⟩ := not_or.mp (List.mem_cons.not.mp alive)
      rw [exec_cons fuel (Ne.symm other)] at returned
      obtain ⟨u, c₁, first, after⟩ := Prog.exec_bind_returns returned
      have runs := enter_runs (N := N) fuel entry (Ne.symm other) rest
      unfold Runs at runs
      rw [first] at runs
      have rest' : Rest c₁ := (runs.2 u rfl).1
      have grown : c₁.history <:+ c'.history := by
        have reached := exec_reached (N := N) fuel later rest'
        rw [after] at reached
        cases reached with
        | alive path => exact path_suffix path
        | destructed _ _ _ member => exact absurd member alive'
      have closing' := enter_closing (Ne.symm other) closing first (never_of_suffix grown never)
      exact ih alive' rest' closing' after

/-- **No call returns in `close_transport` with nothing done about it**, in any run in which no
write of `heartbeat()` is answered `close`. -/
theorem calls_settle (fuel : Nat) (entries : List Entry) (host : String) (port : UInt16)
    (tc : T.Config) (pc : P.Config) (w : ω) (alive : .destruct ∉ entries) :
    let run := (exec N fuel entries).exec (Conn.make host port tc pc w : Conn T P)
    run.1 = some () → occurs hangs run.2.history = false → Closing run.2 := by
  intro run returned never
  have start : Closing (Conn.make host port tc pc w : Conn T P) := closing_of_ne (by simp [Conn.make])
  exact exec_closing alive (make_rest host port tc pc w) start
    (Prod.ext returned rfl : run = (some (), run.2)) never

/-- OpenSSL as one endpoint sees it that connects, and is answered `error` on every other call. -/
def sslAnswering (error : Transport.SslError) : Transport.OpenSsl Script where
  Handle := Unit
  new w := (some (), w)
  setBio _ _ w := w
  setTlsextHostName _ _ w := (1, w)
  setVerifyPeer _ w := w
  set1Host _ _ w := (1, w)
  connect _ w := (1, w)
  read _ _ w := (-1, [], w)
  write _ _ w := (-1, w)
  shutdown _ w := (-1, w)
  getError _ _ _ := error
  free _ w := w

/-- A session with one byte to send on every heartbeat. -/
def ticking : Protocol.Layer ω where
  Config := Unit
  Session := Unit
  session _ _ _ := ()
  onConnect := none
  onData s io w := some (.ok, s, io, w)
  onShutdown := none
  heartbeat := some fun s tx w => some (s, tx.write [0], w)
  teardown := none

/-- A stopped connection waits in `close_transport` for the shutdown it has begun. -/
theorem calls_settle_stopped :
    let run := (exec scripted 9 [.attach 1, .heartbeat, .stop]).exec
      (Conn.make "host" 443 "host" () {} : Conn (Transport.tls (sslAnswering .wantRead) none) ticking)
    run.2.state = .closeTransport ∧ attempted run.2.history = true := by
  intro run
  have evaluated : run.1 = some () ∧ run.2.state = .closeTransport ∧
      occurs hangs run.2.history = false := by
    decide +kernel
  obtain ⟨returned, state, never⟩ := evaluated
  exact ⟨state, (calls_settle (N := scripted) (T := Transport.tls (sslAnswering .wantRead) none)
    (P := ticking) 9 [.attach 1, .heartbeat, .stop] "host" 443 "host" () {} (by decide) returned
    never state).2⟩

/-- The peer has sent its `close_notify`: the heartbeat's write is answered `close`, and the
connection is left in `close_transport`, with the shutdown not attempted; and so it is where the
transport has none. -/
theorem hung_up :
    let run := (exec scripted 9 [.attach 1, .heartbeat]).exec
      (Conn.make "host" 443 "host" () {} : Conn (Transport.tls (sslAnswering .zeroReturn) none)
        ticking)
    let bare := (exec scripted 9 [.attach 1, .heartbeat]).exec
      (Conn.make "host" 443 "host" () {} :
        Conn { Transport.tls (sslAnswering .zeroReturn) none with shutdownStep := none } ticking)
    (run.1 = some () ∧ run.2.state = .closeTransport ∧ attempted run.2.history = false) ∧
      bare.1 = some () ∧ bare.2.state = .closeTransport := by
  decide +kernel

end Manet.Reactor
