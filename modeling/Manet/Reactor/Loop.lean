/-
# Manet.Reactor.Loop — the reactor

`Reactor<Net, Connections...>` (`reactor.hpp`): a fixed family of connections, each with its
own transport and protocol, over one world.  An iteration of `loop` polls, serves the
events of the batch one after the other, and beats on every 64th tick; `stop_all`,
`all_done` and `heartbeat` go over the connections in order.

The template is over the events of the backend: `EventSource` has `Net::event_t` and the functions
the reactor calls on it.  A `Selector` is a source whose events say whom they are for; everything
here is about runs over one, and the backends' own events are read as such
(`Manet.Reactor.EpollLoop`, `Manet.Reactor.FStackLoop`).

Beside the data members a reactor keeps an account of what happened: how often `Net::stop`
was called, the epoch each connection was in at the last poll, which connections have begun
a new one since, whom each batch was about, every event handed to a connection, and what the
connections had done when `stopping` was set.

`Advance` is everything a reactor can do, and `run_advances` that it does nothing else: a
connection is only ever entered by the calls listed there, and between them it makes
`Move`s without a call from outside.
-/
import Mathlib.Data.List.FinRange
import Manet.Reactor.Machine

namespace Manet.Reactor

open Manet.Flow Manet.Net Relation

set_option autoImplicit false
set_option linter.dupNamespace false

/-- What the reactor uses of a backend: `Net::event_t` and the functions on it. -/
structure EventSource (ω : Type) (n : Nat) where
  Ev : Type
  /-- `none`: the number of events is negative. -/
  poll : ω → Option (List Ev) × ω
  /-- `Net::ev_signal`, which may drain the signal. -/
  evSignal : Ev → ω → Bool × ω
  /-- The connection at the address that `Net::get_user_data` returns; `none`: there is none. -/
  getUserData : Ev → Option (Fin n)
  /-- `Net::ev_readable` and the like. -/
  flags : Ev → Event
  stop : ω → ω

/-- A signal, or an event of a connection. -/
inductive Notice (n : Nat) where
  | signal
  | ready (i : Fin n) (ev : Event)
  deriving DecidableEq, Repr

/-- A backend whose events say whom they are for. -/
structure Selector (ω : Type) (n : Nat) where
  /-- `none`: the number of events is negative. -/
  poll : ω → Option (List (Notice n)) × ω
  /-- No more events than `NUM_EVENTS`, which `poll` is given room for. -/
  poll_length : ∀ w batch, (poll w).1 = some batch → batch.length ≤ n + 1
  /-- `Net::ev_signal` drains the signal. -/
  drain : ω → ω
  stop : ω → ω

variable {ω : Type} {n : Nat}

abbrev Selector.source (S : Selector ω n) : EventSource ω n where
  Ev := Notice n
  poll := S.poll
  evSignal
    | .signal, w => (true, S.drain w)
    | .ready _ _, w => (false, w)
  getUserData
    | .signal => none
    | .ready i _ => some i
  flags
    | .signal => {}
    | .ready _ ev => ev
  stop := S.stop

instance : CoeOut (Selector ω n) (EventSource ω n) := ⟨Selector.source⟩

/-- Whom an event is for. -/
def EventSource.target (E : EventSource ω n) (w : ω) (ev : E.Ev) : Option (Fin n) :=
  if (E.evSignal ev w).1 then none else E.getUserData ev

/-- The connections a batch is about, as it is found at the poll. -/
def EventSource.targets (E : EventSource ω n) (w : ω) (events : List E.Ev) : List (Fin n) :=
  events.filterMap (E.target w)

/-- `stop` has been called. -/
def stops (_ : State) (act : Act) (_ : History) : Bool :=
  match act with
  | .enter .stop => true
  | _ => false

abbrev stopped (h : History) : Bool := occurs stops h

/-- An event handed to a connection: the epoch in which it was generated, the one in which it
is handed over, whether the connection has begun an epoch since the poll, and its state; and
whether the reactor was `stopping`, and every connection stopped and on its way out. -/
structure Handed (n : Nat) where
  conn : Fin n
  generated : Nat
  current : Nat
  renewed : Bool
  state : State
  stopping : Bool
  allStopped : Bool
  deriving DecidableEq, Repr

structure ConnectionConfig (T : Transport.Layer ω) (P : Protocol.Layer ω) where
  host : String
  port : UInt16
  transportConfig : T.Config
  protocolConfig : P.Config

structure Reactor (T : Fin n → Transport.Layer ω) (P : Fin n → Protocol.Layer ω) where
  conns : ∀ i, Conn (T i) (P i)
  world : ω
  stopping : Bool
  counter : UInt64
  stops : Nat
  stamps : Fin n → Nat
  begun : List (Fin n)
  batches : List (List (Fin n))
  handed : List (Handed n)
  /-- The histories at the moment `stopping` was set. -/
  marks : Fin n → History

variable {T : Fin n → Transport.Layer ω} {P : Fin n → Protocol.Layer ω}

namespace Reactor

/-- The connections are constructed, and not yet attached. -/
def make (configs : ∀ i, ConnectionConfig (T i) (P i)) (w : ω) : Reactor T P where
  conns i := Conn.make (configs i).host (configs i).port (configs i).transportConfig
    (configs i).protocolConfig w
  world := w
  stopping := false
  counter := 0
  stops := 0
  stamps _ := 0
  begun := []
  batches := []
  handed := []
  marks _ := []

/-- A connection, which acts on the reactor's world. -/
def conn (r : Reactor T P) (i : Fin n) : Conn (T i) (P i) := { r.conns i with world := r.world }

def put (r : Reactor T P) (i : Fin n) (c : Conn (T i) (P i)) : Reactor T P :=
  { r with conns := Function.update r.conns i c, world := c.world }

def allDone (r : Reactor T P) : Bool := (List.finRange n).all fun i => (r.conns i).done

/-- Every connection has been stopped, and is in `close_protocol` or a later state. -/
def allStopped (r : Reactor T P) : Bool :=
  (List.finRange n).all fun i => stopped (r.conns i).history && 3 < (r.conns i).state.rank

def seen (w : ω) (r : Reactor T P) : Reactor T P := { r with world := w }

/-- The poll has returned, with a batch about these connections or a failure. -/
def polled (w : ω) (batch : Option (List (Fin n))) (r : Reactor T P) : Reactor T P :=
  { r with
    world := w
    stamps := fun i => epoch (r.conns i).history
    begun := []
    batches := batch.toList ++ r.batches }

def netStop (E : EventSource ω n) (r : Reactor T P) : Reactor T P :=
  { r with world := E.stop r.world, stops := r.stops + 1 }

def halt (r : Reactor T P) : Reactor T P :=
  { r with stopping := true, marks := fun i => (r.conns i).history }

def tick (r : Reactor T P) : Reactor T P := { r with counter := r.counter + 1 }

/-- An event is handed to a connection. -/
def hand (i : Fin n) (r : Reactor T P) : Reactor T P :=
  { r with
    handed :=
      { conn := i
        generated := r.stamps i
        current := epoch (r.conns i).history
        renewed := i ∈ r.begun
        state := (r.conns i).state
        stopping := r.stopping
        allStopped := r.allStopped } :: r.handed }

/-- A connection begins an epoch. -/
def begins (i : Fin n) (r : Reactor T P) : Reactor T P := { r with begun := i :: r.begun }

/-- No batch so far has had two events of one connection. -/
def Singly (r : Reactor T P) : Prop := ∀ about ∈ r.batches, about.Nodup

end Reactor

/-- Call a method of a connection. -/
def call (i : Fin n) (p : Method (T i) (P i) Unit) : Prog (Reactor T P) Unit := fun r =>
  ((p.exec (r.conn i)).1, r.put i (p.exec (r.conn i)).2)

variable (N : Backend ω) (E : EventSource ω n) (S : Selector ω n) (fuel : Nat)

/-- `conn->attach(conn)`, with a pointer that is not null. -/
def attachConn (i : Fin n) : Prog (Reactor T P) Unit := do
  modify (Reactor.begins i)
  call i (enter N fuel (.attach (i.val + 1)))

/-- `init` -/
def initAll : Prog (Reactor T P) Unit := Prog.inTurn (attachConn N fuel) (List.finRange n)

/-- `stop_all` -/
def stopAll : Prog (Reactor T P) Unit :=
  Prog.inTurn (fun i => call i (enter N fuel .stop)) (List.finRange n)

/-- `heartbeat` -/
def heartbeatAll : Prog (Reactor T P) Unit :=
  Prog.inTurn (fun i => call i (enter N fuel .heartbeat)) (List.finRange n)

def handleConn (i : Fin n) (ev : Event) : Prog (Reactor T P) Unit := do
  modify (Reactor.hand i)
  call i (enter N fuel (.handleEvent ev))

def restartConn (i : Fin n) : Prog (Reactor T P) Unit := do
  modify (Reactor.begins i)
  call i (enter N fuel .restart)

/-- The branch of a signal. -/
def serveSignal : Prog (Reactor T P) Unit := do
  let r ← get
  if !r.stopping then
    modify Reactor.halt
    stopAll N fuel

/-- The branch of an event of a connection. -/
def serveConn (i : Fin n) (ev : Event) : Prog (Reactor T P) Unit := do
  let r ← get
  if !(r.conns i).done then
    handleConn N fuel i ev
    let r ← get
    if !r.stopping ∧ (r.conns i).closed then restartConn N fuel i

/-- A signal, or an event of the connection its user data points to. -/
def serve (ev : E.Ev) : Prog (Reactor T P) Unit := do
  let r ← get
  modify (Reactor.seen (E.evSignal ev r.world).2)
  if (E.evSignal ev r.world).1 then serveSignal N fuel
  else
    match E.getUserData ev with
    | none => failure
    | some i => serveConn N fuel i (E.flags ev)

/-- The body of the loop over the batch. -/
def notice (ev : E.Ev) : Prog (Reactor T P) Unit := do
  serve N E fuel ev
  let r ← get
  if r.stopping ∧ r.allDone then modify (Reactor.netStop E)

/-- The events that `poll` returned. -/
def batch : Option (List E.Ev) → Prog (Reactor T P) Unit
  | none => modify (Reactor.netStop E)
  | some events => Prog.inTurn (notice N E fuel) events

def loop : Prog (Reactor T P) Unit := do
  let r ← get
  let (events, w) := E.poll r.world
  modify (Reactor.polled w (events.map (E.targets w)))
  batch N E fuel events
  modify Reactor.tick
  let r ← get
  if r.counter &&& 63 = 0 then heartbeatAll N fuel

/-- `Net::run` calls `loop` again and again. -/
def loops (k : Nat) : Prog (Reactor T P) Unit :=
  Prog.inTurn (fun _ => loop N E fuel) (List.replicate k ())

/-- The connections are attached, and then there are `k` iterations. -/
def run (k : Nat) : Prog (Reactor T P) Unit := do
  initAll N fuel
  loops N E fuel k

/-! ## Reading an event -/

section Reading

variable {N E}

/-- What serving an event comes to. -/
theorem serve_exec (ev : E.Ev) (r : Reactor T P) :
    (serve N E fuel ev).exec r =
      if (E.evSignal ev r.world).1 then
        (serveSignal N fuel).exec (r.seen (E.evSignal ev r.world).2)
      else
        match E.getUserData ev with
        | none => (none, r.seen (E.evSignal ev r.world).2)
        | some i => (serveConn N fuel i (E.flags ev)).exec (r.seen (E.evSignal ev r.world).2) := by
  unfold serve
  rw [Prog.exec_get_bind, Prog.exec_modify_bind]
  split
  · rfl
  · cases E.getUserData ev <;> rfl

variable {S}

theorem serve_signal (r : Reactor T P) :
    (serve N S.source fuel .signal).exec r = (serveSignal N fuel).exec (r.seen (S.drain r.world)) :=
  serve_exec fuel _ r

theorem serve_ready (i : Fin n) (ev : Event) (r : Reactor T P) :
    (serve N S.source fuel (.ready i ev)).exec r = (serveConn N fuel i ev).exec r :=
  serve_exec fuel _ r

/-- The connections a batch is about. -/
def targets (events : List (Notice n)) : List (Fin n) :=
  events.filterMap fun
    | .signal => none
    | .ready i _ => some i

theorem source_targets (w : ω) (events : List (Notice n)) :
    S.source.targets w events = targets events := by
  refine List.filterMap_congr fun event _ => ?_
  cases event <;> rfl

end Reading

/-! ## One connection among the others -/

namespace Reactor

variable {N S}

@[simp] theorem put_conns_self (r : Reactor T P) (i : Fin n) (c : Conn (T i) (P i)) :
    (r.put i c).conns i = c := by
  unfold put
  exact Function.update_self i c r.conns

theorem put_conns_other (r : Reactor T P) {i j : Fin n} (other : j ≠ i) (c : Conn (T i) (P i)) :
    (r.put i c).conns j = r.conns j := by
  unfold put
  exact Function.update_of_ne other c r.conns

@[simp] theorem put_conn_self (r : Reactor T P) (i : Fin n) (c : Conn (T i) (P i)) :
    (r.put i c).conn i = c := by
  simp [conn, put]

@[simp] theorem put_put (r : Reactor T P) (i : Fin n) (c c' : Conn (T i) (P i)) :
    (r.put i c).put i c' = r.put i c' := by
  simp [put]

/-- What holds of all connections, after one of them has changed. -/
theorem forall_put {p : ∀ i, Conn (T i) (P i) → Prop} {r : Reactor T P} {i : Fin n}
    {c : Conn (T i) (P i)} (here : p i c) (others : ∀ j, j ≠ i → p j (r.conns j)) :
    ∀ j, p j ((r.put i c).conns j) := by
  intro j
  by_cases same : j = i
  · subst same
    rwa [put_conns_self]
  · rw [put_conns_other r same]
    exact others j same

end Reactor

/-- A connection at rest does not depend on the world. -/
theorem Rest.seen {T : Transport.Layer ω} {P : Protocol.Layer ω} {c : Conn T P} (rest : Rest c)
    (w : ω) : Rest { c with world := w } where
  connecting := rest.connecting
  shaking := rest.shaking
  polling := rest.polling
  session := ⟨rest.session.silent, ⟨rest.session.attentive.staying, rest.session.attentive.idle⟩,
    rest.session.undone⟩
  grounded := rest.grounded
  shaken := rest.shaken
  unborn := rest.unborn
  stepping := rest.stepping
  draining := rest.draining

/-! ## Everything a reactor can do -/

inductive Advance : Reactor T P → Reactor T P → Prop where
  | move (r : Reactor T P) (i : Fin n) (c : Conn (T i) (P i)) (move : Move N False (r.conn i) c)
      (told : r.stopping = true → stopped (r.conns i).history = true) : Advance r (r.put i c)
  | attach (r : Reactor T P) (i : Fin n) (running : r.stopping = false)
      (unattached : (r.conns i).cookie = 0) :
      Advance r ((r.begins i).put i ((r.conn i).attached N (i.val + 1)))
  | restart (r : Reactor T P) (i : Fin n) (running : r.stopping = false)
      (closed : (r.conns i).state = .closed) :
      Advance r ((r.begins i).put i ((r.conn i).restarted N))
  | event (r : Reactor T P) (i : Fin n) (ev : Event) (fresh : r.Singly → i ∉ r.begun)
      (running : (r.conns i).done = false) (shut : r.stopping = true → r.allStopped = true) :
      Advance r ((r.hand i).put i ((r.conn i).log (.enter (.handleEvent ev))))
  | beat (r : Reactor T P) (i : Fin n)
      (told : r.stopping = true → stopped (r.conns i).history = true) :
      Advance r (r.put i ((r.conn i).log (.enter .heartbeat)))
  | stop (r : Reactor T P) (i : Fin n) (c : Conn (T i) (P i)) (halted : r.stopping = true)
      (quits : Quits N (r.conn i) c) : Advance r (r.put i c)
  | seen (r : Reactor T P) (w : ω) : Advance r (r.seen w)
  | polled (r : Reactor T P) (w : ω) (batch : Option (List (Fin n))) : Advance r (r.polled w batch)
  | halt (r : Reactor T P) (running : r.stopping = false) : Advance r r.halt
  | netStop (r : Reactor T P) : Advance r (r.netStop S)
  | tick (r : Reactor T P) : Advance r r.tick

variable {N S}

/-- The history of every connection only grows. -/
theorem Advance.suffix {r r' : Reactor T P} (advance : Advance N S r r') :
    ∀ i, (r.conns i).history <:+ (r'.conns i).history := by
  have put : ∀ {r₁ : Reactor T P} {i : Fin n} {c : Conn (T i) (P i)}, r₁.conns = r.conns →
      (r.conns i).history <:+ c.history →
      ∀ j, (r.conns j).history <:+ ((r₁.put i c).conns j).history := by
    intro r₁ i c same grown
    exact Reactor.forall_put (p := fun j c => (r.conns j).history <:+ c.history) grown fun j _ =>
      same ▸ List.suffix_rfl
  cases advance with
  | move i c move => exact put rfl move.suffix
  | attach i _ zero =>
      have step : Step N (r.conn i) ((r.conn i).attached N (i.val + 1)) := .attach _ _ zero trivial
      exact put rfl step.suffix
  | restart i =>
      exact put rfl ((List.suffix_cons _ _).trans
        ((List.suffix_cons _ _).trans (List.suffix_append (_ :: _) _)))
  | event | beat => exact put rfl (List.suffix_cons _ _)
  | stop i c _ quits =>
      exact put rfl ((List.suffix_cons _ _).trans (path_suffix (quits.path (O := False))))
  | seen | polled | halt | netStop | tick => exact fun _ => List.suffix_rfl

theorem path_history {r r' : Reactor T P} (path : ReflTransGen (Advance N S) r r') (i : Fin n) :
    (r.conns i).history <:+ (r'.conns i).history := by
  induction path with
  | refl => exact List.suffix_rfl
  | tail _ last ih => exact ih.trans (last.suffix i)

/-- The moves of one connection are the reactor's. -/
theorem advance_path {r : Reactor T P} {i : Fin n} {c c' : Conn (T i) (P i)}
    (path : ReflTransGen (Move N False) c c')
    (told : r.stopping = true → stopped c.history = true) :
    ReflTransGen (Advance N S) (r.put i c) (r.put i c') := by
  induction path with
  | refl => exact .refl
  | @tail b d before last ih =>
      have still : (r.put i b).stopping = true → stopped ((r.put i b).conns i).history = true := by
        intro halted
        rw [Reactor.put_conns_self]
        exact occurs_of_suffix (path_suffix before) (told halted)
      have step : Advance N S (r.put i b) ((r.put i b).put i d) :=
        .move _ i d (by simpa using last) still
      rw [Reactor.put_put] at step
      exact ih.tail step

theorem call_exec {i : Fin n} {p : Method (T i) (P i) Unit} {r : Reactor T P} {result : Option Unit}
    {c : Conn (T i) (P i)} (executed : p.exec (r.conn i) = (result, c)) :
    (call i p).exec r = (result, r.put i c) := by
  show ((p.exec (r.conn i)).1, r.put i (p.exec (r.conn i)).2) = _
  rw [executed]

/-- A program that enters a connection and then goes on as a method of it does. -/
theorem call_runs {p : Prog (Reactor T P) Unit} {r r₁ : Reactor T P} {i : Fin n}
    {later : Method (T i) (P i) Unit} {c : Conn (T i) (P i)} {Q : Conn (T i) (P i) → Prop}
    (first : Advance N S r (r₁.put i c)) (told : r₁.stopping = true → stopped c.history = true)
    (runs : Runs (Move N False) later c fun _ c' => Q c')
    (executed : p.exec r = ((later.exec c).1, r₁.put i (later.exec c).2)) :
    Runs (Advance N S) p r fun _ r' => ∃ c', r' = r₁.put i c' ∧ ReflTransGen (Move N False) c c' ∧ Q c' := by
  unfold Runs
  rw [executed]
  refine ⟨(ReflTransGen.single first).trans (advance_path runs.1 told), fun u returned => ?_⟩
  exact ⟨_, rfl, runs.1, runs.2 u returned⟩

/-! ## Between the calls -/

section Connection

variable {T : Transport.Layer ω} {P : Protocol.Layer ω} {c c' : Conn T P}

/-- A connection on its way out does not turn back of its own accord. -/
theorem Move.late (move : Move N False c c') (late : 3 < c.state.rank) : 3 < c'.state.rank := by
  cases move with
  | enter _ _ outside | attach _ _ outside | restart _ _ _ outside => exact outside.elim
  | dialFailed fresh | dialPending fresh => rw [fresh] at late; cases late
  | initFailed _ fresh | initHandshake _ _ fresh | initPlain _ _ fresh =>
      rcases fresh with fresh | fresh <;> rw [fresh] at late <;> simp [State.rank] at late
  | refused | dropped | overflow | fail =>
      rw [Conn.enterError_state]
      decide
  | finish | stop =>
      rw [Conn.enterClosed_state]
      decide
  | enterProtocol shaking => rw [shaking] at late; simp [State.rank] at late
  | closeProtocol | drainProtocol | closeTransport => simp [Conn.assign, State.rank]
  | _ => exact late

theorem path_late (path : ReflTransGen (Move N False) c c') :
    3 < c.state.rank → 3 < c'.state.rank :=
  path_invariant (R := Move N False) (fun _ _ move => move.late) path

/-- `stop` puts a connection on its way out. -/
theorem Quits.late (quits : Quits N c c') : 3 < c'.state.rank := by
  cases quits with
  | early =>
      rw [Conn.enterClosed_state]
      decide
  | transport | protocol => simp [Conn.assign, State.rank]
  | already late => exact late

theorem Quits.stopped (quits : Quits N c c') : stopped c'.history = true := by
  have entered : Reactor.stopped (c.log (.enter .stop)).history = true := rfl
  exact occurs_of_suffix (path_suffix (quits.path (O := False))) entered

/-- A heartbeat outside `protocol` does nothing. -/
theorem heartbeat_exec (late : 3 < c.state.rank) : (heartbeat N fuel).exec c = (some (), c) := by
  unfold heartbeat
  rcases P.heartbeat with _ | f
  · rfl
  · have other : ¬ c.state = .protocol := by
      intro running
      rw [running] at late
      simp [State.rank] at late
    simp only [Prog.exec_get_bind, if_neg other]
    rfl

end Connection

namespace Reactor

theorem allDone_iff (r : Reactor T P) : r.allDone = true ↔ ∀ i, (r.conns i).done = true := by
  simp [allDone]

theorem allStopped_iff (r : Reactor T P) : r.allStopped = true ↔
    ∀ i, stopped (r.conns i).history = true ∧ 3 < (r.conns i).state.rank := by
  simp [allStopped]

end Reactor

/-- A reactor between two calls. -/
structure Idle (r : Reactor T P) : Prop where
  rest : ∀ i, Rest (r.conns i)
  shut : r.stopping = true → ∀ i, stopped (r.conns i).history = true ∧ 3 < (r.conns i).state.rank

/-- The end of the last connection has not gone unnoticed. -/
def Noticed (r : Reactor T P) : Prop := r.stopping = true → r.allDone = true → 0 < r.stops

theorem Idle.conn {r : Reactor T P} (idle : Idle r) (i : Fin n) : Rest (r.conn i) :=
  (idle.rest i).seen r.world

/-- One connection has moved on, and rests again. -/
theorem Idle.moved {r r₁ : Reactor T P} (idle : Idle r) {i : Fin n} {c c' : Conn (T i) (P i)}
    (same : r₁.conns = r.conns ∧ r₁.stopping = r.stopping)
    (entered : (r.conns i).history <:+ c.history) (state : c.state = (r.conns i).state)
    (path : ReflTransGen (Move N False) c c') (rest : Rest c') : Idle (r₁.put i c') where
  rest := Reactor.forall_put rest fun j _ => same.1 ▸ idle.rest j
  shut halted := by
    have shut := idle.shut (same.2 ▸ halted)
    refine Reactor.forall_put
      (p := fun _ c => stopped c.history = true ∧ 3 < c.state.rank) ⟨?_, ?_⟩
      fun j _ => same.1 ▸ shut j
    · exact occurs_of_suffix (entered.trans (path_suffix path)) (shut i).1
    · exact path_late path (state ▸ (shut i).2)

theorem Noticed.running {r : Reactor T P} (running : r.stopping = false) : Noticed r := by
  intro halted
  rw [running] at halted
  cases halted

theorem beat_runs (i : Fin n) {r : Reactor T P} (idle : Idle r) (noticed : Noticed r) :
    Runs (Advance N S) (call i (enter N fuel .heartbeat)) r fun _ r' => Idle r' ∧ Noticed r' := by
  have rest : Rest ((r.conn i).log (.enter .heartbeat)) := (idle.conn i).entered (by simp)
  have entered : (r.conns i).history <:+ ((r.conn i).log (.enter .heartbeat)).history :=
    List.suffix_cons _ _
  cases halted : r.stopping
  · have runs : Runs (Move N False) (heartbeat N fuel) ((r.conn i).log (.enter .heartbeat))
        fun _ c' => Rest c' :=
      (heartbeat_runs fuel rest rfl).weaken fun _ c' path post =>
        post (path_grounded path rest.grounded) (path_shaken path rest.shaken)
    have told : r.stopping = true → stopped (r.conns i).history = true := fun past => by
      rw [halted] at past
      cases past
    refine Runs.weaken (call_runs (.beat r i told) told runs rfl) ?_
    rintro - _ - ⟨c', rfl, path, rest'⟩
    exact ⟨idle.moved ⟨rfl, rfl⟩ entered rfl path rest', .running halted⟩
  · -- no session is left to be called
    have late : 3 < ((r.conn i).log (.enter .heartbeat)).state.rank := (idle.shut halted i).2
    have executed : (enter N fuel .heartbeat).exec (r.conn i) =
        (some (), (r.conn i).log (.enter .heartbeat)) := heartbeat_exec fuel late
    have still : ReflTransGen (Move N False) ((r.conn i).log (.enter .heartbeat)) _ := .refl
    refine .of_exec (call_exec executed) (.single (.beat r i fun _ => (idle.shut halted i).1))
      ⟨idle.moved ⟨rfl, rfl⟩ entered rfl still rest, ?_⟩
    intro _ done
    apply noticed halted
    rw [Reactor.allDone_iff] at done ⊢
    intro j
    by_cases same : j = i
    · subst same
      have here := done j
      rw [Reactor.put_conns_self] at here
      exact here
    · rw [← Reactor.put_conns_other r same ((r.conn i).log (.enter .heartbeat))]
      exact done j

theorem heartbeatAll_runs {r : Reactor T P} (idle : Idle r) (noticed : Noticed r) :
    Runs (Advance N S) (heartbeatAll N fuel) r fun _ r' => Idle r' ∧ Noticed r' :=
  runs_inTurn (fun _ r => Idle r ∧ Noticed r) (fun i _ _ inv => beat_runs fuel i inv.1 inv.2) _ r
    ⟨idle, noticed⟩

/-- `stop_all`, with the connections of `left` still to be stopped. -/
structure Halting (r₀ : Reactor T P) (left : List (Fin n)) (r : Reactor T P) : Prop where
  rest : ∀ i, Rest (r.conns i)
  halted : r.stopping = true
  shut : ∀ i, i ∉ left → stopped (r.conns i).history = true ∧ 3 < (r.conns i).state.rank
  begun : r.begun = r₀.begun ∧ r.batches = r₀.batches

theorem stop_halting {r₀ r : Reactor T P} {i : Fin n} {left : List (Fin n)}
    (halting : Halting r₀ (i :: left) r) :
    Runs (Advance N S) (call i (enter N fuel .stop)) r fun _ r' => Halting r₀ left r' := by
  have here : Rest (r.conn i) := (halting.rest i).seen r.world
  obtain ⟨c, later, quits, executed, runs⟩ := stop_quits (N := N) (O := False) fuel here
  have grounded : Grounded c := path_grounded (quits.path (O := False)) here.grounded
  have shaken : Shaken c := path_shaken (quits.path (O := False)) here.shaken
  refine Runs.weaken (call_runs (.stop r i c halting.halted quits) (fun _ => quits.stopped)
    (rested runs grounded shaken) ?_) ?_
  · exact call_exec executed
  · rintro - _ - ⟨c', rfl, path, -, rest'⟩
    refine ⟨Reactor.forall_put rest' fun j _ => halting.rest j, halting.halted, ?_, halting.begun⟩
    apply Reactor.forall_put (p := fun j c => j ∉ left → stopped c.history = true ∧ 3 < c.state.rank)
    · intro _
      exact ⟨occurs_of_suffix (path_suffix path) quits.stopped, path_late path quits.late⟩
    · intro j other outside
      exact halting.shut j (List.not_mem_cons_of_ne_of_not_mem other outside)

theorem stopAll_runs {r : Reactor T P} (rest : ∀ i, Rest (r.conns i)) (halted : r.stopping = true) :
    Runs (Advance N S) (stopAll N fuel) r fun _ r' =>
      Idle r' ∧ r'.begun = r.begun ∧ r'.batches = r.batches := by
  have start : Halting r (List.finRange n) r :=
    ⟨rest, halted, fun i outside => absurd (List.mem_finRange i) outside, rfl, rfl⟩
  refine (runs_inTurn (Halting r) (fun _ _ _ halting => stop_halting fuel halting) _ r start).weaken ?_
  rintro - r' - halting
  exact ⟨⟨halting.rest, fun _ i => halting.shut i List.not_mem_nil⟩, halting.begun⟩

/-- A restart begins an epoch of a closed connection, which nothing has told to stop. -/
theorem restart_runs (i : Fin n) {r : Reactor T P} (idle : Idle r) (running : r.stopping = false)
    (closed : (r.conns i).state = .closed) :
    Runs (Advance N S) (restartConn N fuel i) r fun _ r' =>
      Idle r' ∧ r'.begun = i :: r.begun ∧ r'.batches = r.batches := by
  have here := idle.conn i
  have done : (r.conn i).state.terminal = true := by
    rw [show (r.conn i).state = .closed from closed]
    rfl
  obtain ⟨later, executed, runs⟩ := restart_dials (N := N) (O := False) fuel here done
  have grounded : Grounded ((r.conn i).restarted N) := fun done => by cases done
  have shaken : Shaken ((r.conn i).restarted N) := ⟨fun _ => asked_dialed _, fun state => by cases state⟩
  have told : (r.begins i).stopping = true → stopped ((r.conn i).restarted N).history = true := by
    intro halted
    rw [show (r.begins i).stopping = false from running] at halted
    cases halted
  refine Runs.weaken (call_runs (.restart r i running closed) told (rested runs grounded shaken) ?_) ?_
  · exact call_exec (r := r.begins i) executed
  · rintro - _ - ⟨c', rfl, path, -, rest'⟩
    refine ⟨⟨Reactor.forall_put rest' fun j _ => idle.rest j, fun halted => ?_⟩, rfl, rfl⟩
    rw [show ((r.begins i).put i c').stopping = false from running] at halted
    cases halted

/-- An event is handed to a connection that is not done. -/
theorem handle_runs (i : Fin n) (ev : Event) {r : Reactor T P} (idle : Idle r)
    (fresh : r.Singly → i ∉ r.begun) (running : (r.conns i).done = false) :
    Runs (Advance N S) (handleConn N fuel i ev) r fun _ r' =>
      Idle r' ∧ r'.begun = r.begun ∧ r'.batches = r.batches := by
  have rest : Rest ((r.conn i).log (.enter (.handleEvent ev))) := (idle.conn i).entered (by simp)
  have entered : (r.conns i).history <:+ ((r.conn i).log (.enter (.handleEvent ev))).history :=
    List.suffix_cons _ _
  have runs := rested (handleEvent_runs (N := N) (O := False) fuel ev (idle.conn i))
    rest.grounded rest.shaken
  have shut : r.stopping = true → r.allStopped = true :=
    fun halted => r.allStopped_iff.mpr (idle.shut halted)
  refine Runs.weaken (call_runs (.event r i ev fresh running shut)
    (fun halted => (idle.shut halted i).1) runs rfl) ?_
  rintro - _ - ⟨c', rfl, path, -, rest'⟩
  exact ⟨idle.moved ⟨rfl, rfl⟩ entered rfl path rest', rfl, rfl⟩

/-- `stop_all` is called on the first signal. -/
theorem serveSignal_runs {r : Reactor T P} (idle : Idle r) :
    Runs (Advance N S) (serveSignal N fuel) r fun _ r' =>
      Idle r' ∧ r'.begun = r.begun ∧ r'.batches = r.batches := by
  refine runs_get_bind ?_
  by_cases running : r.stopping = false
  · rw [if_pos (by simp [running])]
    exact runs_modify_bind (.halt r running) (stopAll_runs fuel (r := r.halt) idle.rest rfl)
  · rw [if_neg (by simpa using running)]
    exact runs_pure ⟨idle, rfl, rfl⟩

/-- Only the connection an event is about can begin an epoch. -/
theorem serveConn_runs (i : Fin n) (ev : Event) {r : Reactor T P} (idle : Idle r)
    (fresh : r.Singly → i ∉ r.begun) :
    Runs (Advance N S) (serveConn N fuel i ev) r fun _ r' =>
      Idle r' ∧ (r'.begun = r.begun ∨ r'.begun = i :: r.begun) ∧ r'.batches = r.batches := by
  refine runs_get_bind ?_
  by_cases running : (r.conns i).done = false
  swap
  · rw [if_neg (by simpa using running)]
    exact runs_pure ⟨idle, .inl rfl, rfl⟩
  rw [if_pos (by simp [running])]
  refine (handle_runs fuel i ev idle fresh running).bind ?_
  rintro - r₁ - ⟨idle₁, begun₁, batches₁⟩
  refine runs_get_bind ?_
  by_cases restarts : !r₁.stopping ∧ (r₁.conns i).closed
  · rw [if_pos restarts]
    obtain ⟨alive, closed⟩ := restarts
    refine (restart_runs fuel i idle₁ (by simpa using alive) (of_decide_eq_true closed)).weaken ?_
    rintro - r' - ⟨idle', begun', batches'⟩
    exact ⟨idle', .inr (by rw [begun', begun₁]), batches'.trans batches₁⟩
  · rw [if_neg restarts]
    exact runs_pure ⟨idle₁, .inl begun₁, batches₁⟩

/-- What serving an event leaves. -/
theorem serve_runs (event : Notice n) {r : Reactor T P} (idle : Idle r)
    (fresh : r.Singly → ∀ i ∈ targets [event], i ∉ r.begun) :
    Runs (Advance N S) (serve N S.source fuel event) r fun _ r' =>
      Idle r' ∧ (∀ j ∈ r'.begun, j ∈ r.begun ∨ j ∈ targets [event]) ∧ r'.batches = r.batches := by
  cases event with
  | signal =>
      have drained : Idle (r.seen (S.drain r.world)) := ⟨idle.rest, idle.shut⟩
      have runs := serveSignal_runs (N := N) (S := S) fuel drained
      unfold Runs at runs ⊢
      rw [serve_signal]
      refine ⟨(ReflTransGen.single (.seen r _)).trans runs.1, fun u returned => ?_⟩
      obtain ⟨idle', begun, batches⟩ := runs.2 u returned
      exact ⟨idle', fun j member => .inl (by rwa [begun] at member), batches⟩
  | ready i ev =>
      have target : i ∈ targets [Notice.ready i ev] := by simp [targets]
      have runs := serveConn_runs (N := N) (S := S) fuel i ev idle fun singly => fresh singly i target
      unfold Runs at runs ⊢
      rw [serve_ready]
      refine ⟨runs.1, fun u returned => ?_⟩
      obtain ⟨idle', begun, batches⟩ := runs.2 u returned
      refine ⟨idle', fun j member => ?_, batches⟩
      rcases begun with same | more
      · exact .inl (same ▸ member)
      · rw [more] at member
        rcases List.mem_cons.mp member with rfl | before
        · exact .inr target
        · exact .inl before

/-- After each event the end of the last connection is noticed. -/
theorem notice_runs (event : Notice n) {r : Reactor T P} (idle : Idle r)
    (fresh : r.Singly → ∀ i ∈ targets [event], i ∉ r.begun) :
    Runs (Advance N S) (notice N S.source fuel event) r fun _ r' =>
      Idle r' ∧ Noticed r' ∧ (∀ j ∈ r'.begun, j ∈ r.begun ∨ j ∈ targets [event]) ∧
        r'.batches = r.batches := by
  refine (serve_runs fuel event idle fresh).bind ?_
  rintro - r₁ - ⟨idle₁, begun⟩
  refine runs_get_bind ?_
  by_cases ended : r₁.stopping ∧ r₁.allDone
  · rw [if_pos ended]
    exact runs_modify (.netStop r₁)
      ⟨⟨idle₁.rest, idle₁.shut⟩, fun _ _ => Nat.succ_pos r₁.stops, begun⟩
  · rw [if_neg ended]
    exact runs_pure ⟨idle₁, fun halted done => absurd ⟨halted, done⟩ ended, begun⟩

/-- The events of a batch still to be served. -/
structure Serving (events : List (Notice n)) (r : Reactor T P) : Prop where
  idle : Idle r
  noticed : Noticed r
  fresh : r.Singly → (targets events).Nodup ∧ ∀ i ∈ targets events, i ∉ r.begun

theorem targets_cons (event : Notice n) (later : List (Notice n)) :
    targets (event :: later) = targets [event] ++ targets later := by
  cases event <;> rfl

theorem Serving.next {event : Notice n} {later : List (Notice n)} {r r' : Reactor T P}
    (serving : Serving (event :: later) r) (idle : Idle r') (noticed : Noticed r')
    (begun : ∀ j ∈ r'.begun, j ∈ r.begun ∨ j ∈ targets [event])
    (batches : r'.batches = r.batches) : Serving later r' where
  idle := idle
  noticed := noticed
  fresh singly := by
    obtain ⟨nodup, fresh⟩ := serving.fresh fun about member => singly about (batches ▸ member)
    rw [targets_cons] at nodup fresh
    obtain ⟨-, rest, apart⟩ := List.nodup_append'.mp nodup
    refine ⟨rest, fun i member since => ?_⟩
    rcases begun i since with before | now
    · exact fresh i (List.mem_append_right _ member) before
    · exact apart now member

theorem batch_runs (events : Option (List (Notice n))) {r : Reactor T P} (idle : Idle r)
    (serving : ∀ batch, events = some batch → Serving batch r) :
    Runs (Advance N S) (batch N S.source fuel events) r fun _ r' => Idle r' ∧ Noticed r' := by
  cases events with
  | none => exact runs_modify (.netStop r) ⟨⟨idle.rest, idle.shut⟩, fun _ _ => Nat.succ_pos r.stops⟩
  | some events =>
      refine (runs_inTurn Serving ?_ events r (serving events rfl)).weaken
        fun _ r' _ serving => ⟨serving.idle, serving.noticed⟩
      intro event later r serving
      have first : r.Singly → ∀ i ∈ targets [event], i ∉ r.begun := fun singly i member =>
        (serving.fresh singly).2 i (by rw [targets_cons]; exact List.mem_append_left _ member)
      refine (notice_runs fuel event serving.idle first).weaken ?_
      rintro - r' - ⟨idle', noticed', begun, batches⟩
      exact serving.next idle' noticed' begun batches

theorem loop_runs {r : Reactor T P} (idle : Idle r) (noticed : Noticed r) :
    Runs (Advance N S) (loop N S.source fuel) r fun _ r' => Idle r' ∧ Noticed r' := by
  have polled : Advance N S r
      (r.polled (S.poll r.world).2 ((S.poll r.world).1.map (S.source.targets (S.poll r.world).2))) :=
    .polled r _ _
  refine runs_get_bind (runs_modify_bind polled ?_)
  have idle' : Idle (r.polled (S.poll r.world).2
      ((S.poll r.world).1.map (S.source.targets (S.poll r.world).2))) := ⟨idle.rest, idle.shut⟩
  refine (batch_runs fuel (S.poll r.world).1 idle' fun batch found => ?_).bind ?_
  · refine ⟨idle', noticed, fun singly => ⟨?_, fun _ _ => List.not_mem_nil⟩⟩
    rw [← source_targets (S := S) (S.poll r.world).2 batch]
    apply singly
    rw [found]
    exact List.mem_cons_self
  · rintro - r₁ - ⟨idle₁, noticed₁⟩
    refine runs_modify_bind (.tick r₁) (runs_get_bind ?_)
    have idle₂ : Idle r₁.tick := ⟨idle₁.rest, idle₁.shut⟩
    split
    · exact heartbeatAll_runs fuel idle₂ noticed₁
    · exact runs_pure ⟨idle₂, noticed₁⟩

/-! ## The whole run -/

/-- `init`, with the connections of `left` still to be attached. -/
structure Attaching (left : List (Fin n)) (r : Reactor T P) : Prop where
  rest : ∀ i, Rest (r.conns i)
  running : r.stopping = false
  unattached : ∀ i ∈ left, (r.conns i).cookie = 0
  nodup : left.Nodup

theorem attach_runs {i : Fin n} {left : List (Fin n)} {r : Reactor T P}
    (attaching : Attaching (i :: left) r) :
    Runs (Advance N S) (attachConn N fuel i) r fun _ r' => Attaching left r' := by
  have here : Rest (r.conn i) := (attaching.rest i).seen r.world
  have zero : (r.conn i).cookie = 0 := attaching.unattached i List.mem_cons_self
  obtain ⟨later, executed, runs⟩ := attach_dials (N := N) (O := False) fuel (i.val + 1) zero
  have grounded : Grounded ((r.conn i).attached N (i.val + 1)) := fun done => by cases done
  have shaken : Shaken ((r.conn i).attached N (i.val + 1)) :=
    ⟨fun _ => asked_dialed _, fun state => by cases state⟩
  obtain ⟨fresh, nodup⟩ := List.nodup_cons.mp attaching.nodup
  have told : (r.begins i).stopping = true →
      stopped ((r.conn i).attached N (i.val + 1)).history = true := by
    intro halted
    rw [show (r.begins i).stopping = false from attaching.running] at halted
    cases halted
  refine Runs.weaken
    (call_runs (.attach r i attaching.running zero) told (rested runs grounded shaken) ?_) ?_
  · exact call_exec (r := r.begins i) executed
  · rintro - _ - ⟨c', rfl, path, -, rest'⟩
    refine ⟨Reactor.forall_put rest' fun j _ => attaching.rest j, attaching.running, ?_, nodup⟩
    intro j member
    have other : j ≠ i := fun same => fresh (same ▸ member)
    rw [Reactor.put_conns_other _ other]
    exact attaching.unattached j (List.mem_cons_of_mem i member)

theorem loops_runs (k : Nat) {r : Reactor T P} (idle : Idle r) (noticed : Noticed r) :
    Runs (Advance N S) (loops N S fuel k) r fun _ r' => Idle r' ∧ Noticed r' :=
  runs_inTurn (fun _ r => Idle r ∧ Noticed r) (fun _ _ _ inv => loop_runs fuel inv.1 inv.2) _ r
    ⟨idle, noticed⟩

/-- **Every run of a reactor is a path of `Advance`**, whether or not it returns. -/
theorem run_advances (k : Nat) (configs : ∀ i, ConnectionConfig (T i) (P i)) (w : ω) :
    Runs (Advance N S) (run N S fuel k) (Reactor.make configs w) fun _ r =>
      Idle r ∧ Noticed r := by
  have start : Attaching (List.finRange n) (Reactor.make configs w) :=
    ⟨fun i => make_rest _ _ _ _ w, rfl, fun _ _ => rfl, List.nodup_finRange n⟩
  refine (runs_inTurn Attaching (fun _ _ _ attaching => attach_runs fuel attaching) _ _ start).bind ?_
  rintro - r - attached
  have idle : Idle r := ⟨attached.rest, fun halted => by rw [attached.running] at halted; cases halted⟩
  exact loops_runs fuel k idle (.running attached.running)

/-- Further iterations go on from where the first ones returned. -/
theorem run_continues {k : Nat} {r r' : Reactor T P}
    (returned : (run N S fuel k).exec r = (some (), r')) (m : Nat) :
    (run N S fuel (k + m)).exec r = (loops N S fuel m).exec r' := by
  unfold run at returned ⊢
  rcases executed : (initAll N fuel).exec r with ⟨_ | u, r₁⟩
  · rw [Prog.exec_bind_none executed] at returned
    cases returned
  · rw [Prog.exec_bind_some executed] at returned ⊢
    unfold loops at returned ⊢
    rw [List.replicate_add]
    exact Prog.exec_inTurn_append returned

end Manet.Reactor
