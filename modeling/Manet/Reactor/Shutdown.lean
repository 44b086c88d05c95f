/-
# Manet.Reactor.Shutdown — a signal ends everything

Once a signal has been seen, `stop_all` stops every connection, and from then on each is on
its way out: `departing` says of every act recorded after a connection's `stop` that it neither
dials, restarts nor feeds the session, and that it finds the connection in `close_protocol`
or a later state (`stop` itself goes there first).  `Move.parted` is that a connection keeps to that by
itself, and `Advance.final` that the reactor does not bring it back.

Nothing comes in between: the first thing a connection does after `stopping` was set is its
`stop` (`StoppedFirst`), and all of them have been stopped when the next event is handed over,
be it of the same batch.

`shutdown_final` adds the end: no connection becomes done without the check of `all_done`
that follows.
-/
import Manet.Reactor.Interest
import Manet.Reactor.Staleness

namespace Manet.Reactor

open Manet.Flow Manet.Net Relation

set_option autoImplicit false

/-- Dialing, restarting, and every call that feeds the session. -/
def Act.revives : Act → Bool
  | .begin | .enter (.attach _) | .enter .restart | .heartbeat _ _ | .noReturn .heartbeat => true
  | .handler kind _ _ _ | .noReturn (.handler kind _) => kind ≠ .onShutdown
  | _ => false

/-- What may be recorded after a `stop`. -/
def departing (s : State) (act : Act) (h : History) : Prop :=
  stopped h = true → act.revives = false ∧
    (3 < s.rank ∨ ∃ s', act = .assign s' ∧ 3 < s'.rank ∧ h.head? = some (s, .enter .stop))

variable {ω : Type} {N : Backend ω}

section Connection

variable {T : Transport.Layer ω} {P : Protocol.Layer ω} {c c' : Conn T P}

/-- A connection that has been stopped is on its way out, and has been since. -/
structure Parted (c : Conn T P) : Prop where
  late : stopped c.history = true → 3 < c.state.rank
  always : Always departing c.history

theorem Parted.of_running (running : stopped c.history = false) : Parted c where
  late past := by
    rw [running] at past
    cases past
  always s act older grown past := by
    have now : stopped c.history = true :=
      occurs_of_suffix ((List.suffix_cons (s, act) older).trans grown) past
    rw [running] at now
    cases now

/-- Only the call of `stop` is a stop. -/
theorem Move.stopped (move : Move N False c c') : stopped c'.history = stopped c.history := by
  have torn : ∀ c : Conn T P, Reactor.stopped (c.teardown N).history = Reactor.stopped c.history :=
    Conn.teardown_unread N (fun _ _ => rfl) (fun _ _ => rfl) fun _ _ _ => rfl
  cases move with
  | enter _ _ outside | attach _ _ outside | restart _ _ _ outside => exact outside.elim
  | initFailed w _ held =>
      exact Conn.initFailed_unread N (f := Reactor.stopped) (fun _ _ => rfl) (fun _ _ _ => rfl) w held
  | refused | dropped | overflow | fail => exact torn _
  | finish | stop => exact torn _
  | _ => rfl

theorem stopped_dialed (c : Conn T P) : stopped (c.begin.dial N).2.history = stopped c.history :=
  Conn.dial_unread N (fun _ _ _ => rfl) (fun _ _ _ => rfl) c.begin

theorem always_log (act : Act) (always : Always departing c.history) (late : 3 < c.state.rank)
    (quiet : act.revives = false) : Always departing (c.log act).history :=
  always_cons.mpr ⟨fun _ => ⟨quiet, .inl late⟩, always⟩

/-- A connection that is on its way out is torn down. -/
theorem always_teardown (always : Always departing c.history) (late : 3 < c.state.rank) :
    Always departing (c.teardown N).history := by
  have step : ∀ (act : Act) (h : History), act.revives = false → Always departing h →
      Always departing ((c.state, act) :: h) :=
    fun act h quiet before => always_cons.mpr ⟨fun _ => ⟨quiet, .inl late⟩, before⟩
  have session : Always departing c.sessionTeardown.history := by
    rcases c.sessionTeardown_history with same | same <;> rw [same]
    · exact step .teardown _ rfl always
    · exact always
  by_cases held : c.fd = -1
  · rwa [Conn.teardown_idle N held]
  · rw [Conn.teardown_history N held]
    exact step _ _ rfl (step _ _ rfl (step _ _ rfl session))

theorem always_enterError (always : Always departing c.history) (late : 3 < c.state.rank) :
    Always departing (c.enterError N).history :=
  always_teardown (c := c.assign .error) (always_log (.assign .error) always late rfl)
    (show 3 < State.rank .error by decide)

theorem Handles.departing {kind : Protocol.HandlerKind} {f : Protocol.Handler P.Session ω}
    (handles : Handles c kind f) (late : 3 < c.state.rank) : kind = .onShutdown := by
  cases handles with
  | onConnect _ running | onData running =>
      rw [running] at late
      simp [State.rank] at late
  | onShutdown => rfl

theorem Move.parted (move : Move N False c c') (parted : Parted c) : Parted c' := by
  cases past : Reactor.stopped c.history
  · exact .of_running (move.stopped.trans past)
  have late := parted.late past
  refine ⟨fun _ => move.late late, ?_⟩
  have always := parted.always
  -- the moves of the states before are not possible any more
  cases move with
  | enter _ _ outside | attach _ _ outside | restart _ _ _ outside => exact outside.elim
  | dialFailed fresh | dialPending fresh | unreachable fresh =>
      rw [fresh] at late
      simp [State.rank] at late
  | initFailed _ fresh | initHandshake _ _ fresh | initPlain _ _ fresh =>
      rcases fresh with fresh | fresh <;> rw [fresh] at late <;> simp [State.rank] at late
  | polled _ _ _ waiting | refused _ _ _ waiting | dropped _ waiting =>
      rw [waiting] at late
      simp [State.rank] at late
  | handshake _ _ _ _ _ shaking | enterProtocol shaking =>
      rw [shaking] at late
      simp [State.rank] at late
  | heartbeat _ _ _ _ _ running | closeProtocol running =>
      rw [running] at late
      simp [State.rank] at late
  | stop early =>
      rcases early with ⟨fresh, -⟩ | fresh <;> rw [fresh] at late <;> simp [State.rank] at late
  | subscribe | read | write | drainProtocol | closeTransport | shutdown =>
      exact always_log _ always late rfl
  | overflow =>
      exact always_enterError (c := c.log (.overflow c.rx)) (always_log _ always late rfl) late
  | fail => exact always_enterError always late
  | finish =>
      exact always_teardown (c := c.assign .closed) (always_log (.assign .closed) always late rfl)
        (show 3 < State.rank .closed by decide)
  | handler kind _ status _ io _ handles =>
      refine always_log (.handler kind status ⟨c.rx, c.tx⟩ io) always late ?_
      rw [handles.departing late]
      rfl
  | clearRx => exact always
  | noReturn callee permitted =>
      refine always_log _ always late ?_
      cases callee with
      | handler kind offered =>
          obtain ⟨-, f, handles⟩ := permitted
          rw [handles.departing late]
          rfl
      | heartbeat =>
          rw [permitted.1] at late
          simp [State.rank] at late
      | _ => rfl

/-- `stop` goes on its way out first. -/
theorem Quits.parted (quits : Quits N c c') (parted : Parted c) : Parted c' := by
  refine ⟨fun _ => quits.late, ?_⟩
  have entered : Always departing (c.log (.enter .stop)).history :=
    always_cons.mpr ⟨fun past => ⟨rfl, .inl (parted.late past)⟩, parted.always⟩
  have assigned : ∀ s : State, 3 < s.rank →
      Always departing ((c.log (.enter .stop)).assign s).history :=
    fun s late => always_cons.mpr ⟨fun _ => ⟨rfl, .inr ⟨s, rfl, late, rfl⟩⟩, entered⟩
  cases quits with
  | early =>
      exact always_teardown (c := (c.log (.enter .stop)).assign .closed) (assigned .closed (by decide))
        (show 3 < State.rank .closed by decide)
  | transport => exact assigned .closeTransport (by decide)
  | protocol => exact assigned .closeProtocol (by decide)
  | already => exact entered

/-- A call that neither attaches nor restarts. -/
theorem Parted.entered (parted : Parted c) {entry : Entry}
    (quiet : (Act.enter entry).revives = false) (going : entry ≠ .stop) :
    Parted (c.log (.enter entry)) := by
  have same : stopped (c.log (.enter entry)).history = stopped c.history := by
    cases entry with
    | stop => exact absurd rfl going
    | _ => rfl
  refine ⟨fun past => parted.late (same ▸ past), ?_⟩
  exact always_cons.mpr ⟨fun past => ⟨quiet, .inl (parted.late past)⟩, parted.always⟩

end Connection

variable {n : Nat} {S : Selector ω n} {T : Fin n → Transport.Layer ω} {P : Fin n → Protocol.Layer ω}

/-- Since `mark` nothing has happened, or the first thing that happened was a call of `stop`. -/
def StoppedFirst (mark h : History) : Prop := h = mark ∨ ∃ s, (s, Act.enter .stop) :: mark <:+ h

/-- A connection that has been stopped since goes on. -/
theorem StoppedFirst.grown {mark h h' : History} (first : StoppedFirst mark h)
    (unstopped : stopped mark = false) (told : stopped h = true) (grown : h <:+ h') :
    StoppedFirst mark h' := by
  rcases first with rfl | ⟨s, called⟩
  · rw [unstopped] at told
    cases told
  · exact .inr ⟨s, called.trans grown⟩

/-- The call of `stop` itself. -/
theorem StoppedFirst.entered {mark h h' : History} (first : StoppedFirst mark h) {s : State}
    (grown : (s, Act.enter .stop) :: h <:+ h') : StoppedFirst mark h' := by
  rcases first with rfl | ⟨s', called⟩
  · exact .inr ⟨s, grown⟩
  · exact .inr ⟨s', called.trans ((List.suffix_cons _ _).trans grown)⟩

/-- Every connection keeps to that, and only a signal stops one; it stops them all, before
anything else happens. -/
structure Final (r : Reactor T P) : Prop where
  parted : ∀ i, Parted (r.conns i)
  signalled : ∀ i, stopped (r.conns i).history = true → r.stopping = true
  unstopped : ∀ i, stopped (r.marks i) = false
  first : r.stopping = true → ∀ i, StoppedFirst (r.marks i) (r.conns i).history
  handed : ∀ e ∈ r.handed, e.stopping = true → e.allStopped = true

theorem make_final (configs : ∀ i, ConnectionConfig (T i) (P i)) (w : ω) :
    Final (Reactor.make configs w) where
  parted _ := .of_running rfl
  signalled _ past := by cases past
  unstopped _ := rfl
  first halted := by cases halted
  handed _ none := absurd none List.not_mem_nil

theorem Final.conn {r : Reactor T P} (final : Final r) (i : Fin n) : Parted (r.conn i) :=
  ⟨(final.parted i).late, (final.parted i).always⟩

theorem Final.put {r : Reactor T P} (final : Final r) {i : Fin n} {c : Conn (T i) (P i)}
    (parted : Parted c) (signalled : stopped c.history = true → r.stopping = true)
    (first : r.stopping = true → StoppedFirst (r.marks i) c.history) : Final (r.put i c) where
  parted := Reactor.forall_put parted fun j _ => final.parted j
  signalled := Reactor.forall_put (p := fun _ c => stopped c.history = true → r.stopping = true)
    signalled fun j _ => final.signalled j
  unstopped := final.unstopped
  first halted := Reactor.forall_put (p := fun j c => StoppedFirst (r.marks j) c.history)
    (first halted) fun j _ => final.first halted j
  handed := final.handed

/-- A connection that has been stopped, if the reactor is stopping, goes on. -/
theorem Final.grown {r : Reactor T P} (final : Final r) {i : Fin n}
    (told : r.stopping = true → stopped (r.conns i).history = true) {h : History}
    (grown : (r.conns i).history <:+ h) : r.stopping = true → StoppedFirst (r.marks i) h :=
  fun halted => (final.first halted i).grown (final.unstopped i) (told halted) grown

/-- A connection begins an epoch, which it does not after a signal. -/
theorem Final.begins {r : Reactor T P} (final : Final r) (running : r.stopping = false) {i : Fin n}
    {c : Conn (T i) (P i)} (same : stopped c.history = stopped (r.conns i).history) :
    Final ((r.begins i).put i c) := by
  have going : stopped c.history = false := by
    rw [same, ← Bool.not_eq_true]
    intro past
    rw [final.signalled i past] at running
    cases running
  have begun : Final (r.begins i) :=
    ⟨final.parted, final.signalled, final.unstopped, final.first, final.handed⟩
  refine begun.put (.of_running going) (fun past => ?_) fun halted => ?_
  · rw [going] at past
    cases past
  · rw [show (r.begins i).stopping = false from running] at halted
    cases halted

theorem Advance.final {r r' : Reactor T P} (advance : Advance N S r r') (final : Final r) :
    Final r' := by
  cases advance with
  | move i c move told =>
      refine final.put (move.parted (final.conn i)) (fun past => ?_) (final.grown told move.suffix)
      exact final.signalled i (move.stopped ▸ past)
  | attach i running => exact final.begins running (stopped_dialed _)
  | restart i running => exact final.begins running (stopped_dialed _)
  | event i ev _ _ shut =>
      have handed : Final (r.hand i) := by
        refine ⟨final.parted, final.signalled, final.unstopped, final.first, fun e member => ?_⟩
        rcases List.mem_cons.mp member with rfl | before
        · exact shut
        · exact final.handed e before
      have told : (r.hand i).stopping = true → stopped ((r.hand i).conns i).history = true :=
        fun halted => (r.allStopped_iff.mp (shut halted) i).1
      exact handed.put ((final.conn i).entered rfl (by simp)) (final.signalled i)
        (handed.grown told (List.suffix_cons _ _))
  | beat i told =>
      exact final.put ((final.conn i).entered rfl (by simp)) (final.signalled i)
        (final.grown told (List.suffix_cons _ _))
  | stop i c halted quits =>
      refine final.put (quits.parted (final.conn i)) (fun _ => halted) fun _ => ?_
      exact (final.first halted i).entered (path_suffix (quits.path (O := False)))
  | halt running =>
      refine ⟨final.parted, fun _ _ => rfl, fun i => ?_, fun _ _ => .inl rfl, final.handed⟩
      rw [← Bool.not_eq_true]
      intro past
      rw [final.signalled i past] at running
      cases running
  | seen | polled | netStop | tick =>
      exact ⟨final.parted, final.signalled, final.unstopped, final.first, final.handed⟩

/-- **A shutdown is final, and noticed.**  At every point of every run, returned or not: whatever
a connection has done since it was stopped was on its way out, and none is stopped without a
signal; once `stopping` is set, the first thing a connection does is its `stop`; and every event
that is handed over from then on finds all connections stopped and in `close_protocol` or a later
state.  When the iteration that has seen the signal returns, all of them are so, and in every
continuation, returned or not, they stay so; and after every iteration, if all are done then
`Net::stop` has been called. -/
theorem shutdown_final (fuel k : Nat) (configs : ∀ i, ConnectionConfig (T i) (P i)) (w : ω) :
    let finished := (run N S fuel k).exec (Reactor.make configs w)
    let r := finished.2
    (∀ i, Always departing (r.conns i).history ∧
      (stopped (r.conns i).history = true → r.stopping = true ∧ 3 < (r.conns i).state.rank)) ∧
    (r.stopping = true → ∀ i, StoppedFirst (r.marks i) (r.conns i).history) ∧
    (∀ e ∈ r.handed, e.stopping = true → e.allStopped = true) ∧
    (finished.1 = some () → r.stopping = true →
      (∀ m i, let r' := ((run N S fuel (k + m)).exec (Reactor.make configs w)).2
        stopped (r'.conns i).history = true ∧ 3 < (r'.conns i).state.rank) ∧
      (r.allDone = true → 0 < r.stops)) := by
  intro finished r
  have runs := run_advances (N := N) (S := S) fuel k configs w
  have final : Final r := runs.invariant (fun _ _ advance => advance.final) (make_final configs w)
  refine ⟨fun i => ⟨(final.parted i).always, fun past => ?_⟩, final.first, final.handed,
    fun returned halted => ?_⟩
  · exact ⟨final.signalled i past, (final.parted i).late past⟩
  obtain ⟨idle, noticed⟩ := runs.2 () returned
  refine ⟨fun m i => ?_, noticed halted⟩
  have later := loops_runs (N := N) (S := S) fuel m idle noticed
  rw [run_continues fuel (show _ = (some (), r) from Prod.ext returned rfl) m]
  have past := occurs_of_suffix (path_history later.1 i) (idle.shut halted i).1
  have final' := later.invariant (fun _ _ advance => advance.final) final
  exact ⟨past, (final'.parted i).late past⟩

/-- A connection that cannot write its last byte at once. -/
def lingering : Reactor (fun _ : Fin 1 => Transport.plain scripted 1) fun _ => parting :=
  Reactor.make (fun _ => ⟨"host", 80, (), ()⟩) { writes := [.error .eagain] }

/-- A signal, and in the same batch room to write: the connection is stopped before it hears of
it, and then it is done. -/
theorem shutdown_final_signal :
    let S := reporting [.signal, .ready 0 { writeable := true }] (by decide)
    let finished := (run scripted S 9 2).exec lingering
    finished.1 = some () ∧ finished.2.stopping = true ∧ (finished.2.conns 0).state = .closed ∧
      finished.2.handed.map (fun e => (e.state, e.stopping)) = [(.drainProtocol, true)] ∧
      (∀ e ∈ finished.2.handed, e.stopping = true → e.allStopped = true) ∧
      stopped (finished.2.conns 0).history = true ∧ 0 < finished.2.stops := by
  have returned : ((run scripted (reporting [.signal, .ready 0 { writeable := true }]
      (by decide)) 9 2).exec lingering).1 = some () := by decide +kernel
  have halted : ((run scripted (reporting [.signal, .ready 0 { writeable := true }]
      (by decide)) 9 2).exec lingering).2.stopping = true := by decide +kernel
  obtain ⟨-, -, handed, ended⟩ := shutdown_final (N := scripted)
    (S := reporting [.signal, .ready 0 { writeable := true }] (by decide))
    (T := fun _ => Transport.plain scripted 1) (P := fun _ => parting) 9 2
    (fun _ => ⟨"host", 80, (), ()⟩) { writes := [.error .eagain] }
  obtain ⟨all, noticed⟩ := ended returned halted
  exact ⟨returned, halted, by decide +kernel, by decide +kernel, handed, (all 0 0).1,
    noticed (by decide +kernel)⟩

end Manet.Reactor
