/-
# Manet.Reactor.Tracking — a reactor's run, world included

`Advance` says what a reactor may do and why, and leaves the world open where only the backend
acts on it.  `Track` is the other reading of the same run: it says exactly what becomes of the
world, and little of the causes.  Between the calls it is enough that every connection rests and
has its cookie (`Seated`), so a property of the world is an invariant of `Track` (`run_tracks`).
-/
import Manet.Reactor.Loop

namespace Manet.Reactor

open Manet.Flow Manet.Net Relation

set_option autoImplicit false

section Connection

variable {ω : Type} {N : Backend ω} {T : Transport.Layer ω} {P : Protocol.Layer ω}

/-- Of its own accord a connection neither changes its cookie nor takes another descriptor. -/
theorem Move.holds {c c' : Conn T P} (move : Move N False c c') :
    c'.cookie = c.cookie ∧ (c'.fd = c.fd ∨ c'.fd = -1) := by
  have torn : ∀ c : Conn T P, (c.teardown N).cookie = c.cookie ∧
      ((c.teardown N).fd = c.fd ∨ (c.teardown N).fd = -1) := fun c =>
    ⟨c.teardown_cookie N, .inr (c.teardown_fd N)⟩
  cases move with
  | enter _ _ outside | attach _ _ outside | restart _ _ _ outside => exact outside.elim
  | initFailed w => exact ⟨c.initFailed_cookie N w, .inr (c.initFailed_fd N w)⟩
  | refused ret err w => exact torn ((c.polled ret err w).assign .error)
  | overflow => exact torn ((c.log (.overflow c.rx)).assign .error)
  | dropped | fail => exact torn (c.assign .error)
  | finish | stop => exact torn (c.assign .closed)
  | _ => exact ⟨rfl, .inl rfl⟩

theorem path_cookie {c c' : Conn T P} (path : ReflTransGen (Move N False) c c') :
    c'.cookie = c.cookie := by
  induction path with
  | refl => rfl
  | tail _ last ih => exact last.holds.1.trans ih

end Connection

variable {ω : Type} {n : Nat} {T : Fin n → Transport.Layer ω} {P : Fin n → Protocol.Layer ω}
variable (N : Backend ω) (S : Selector ω n)

inductive Track : Reactor T P → Reactor T P → Prop where
  | attach (r : Reactor T P) (i : Fin n) (unattached : (r.conns i).cookie = 0)
      (idle : (r.conns i).fd = -1) : Track r (r.put i ((r.conn i).attached N (i.val + 1)))
  | enter (r : Reactor T P) (i : Fin n) (entry : Entry) :
      Track r (r.put i ((r.conn i).log (.enter entry)))
  | restart (r : Reactor T P) (i : Fin n) (attached : (r.conns i).cookie ≠ 0)
      (idle : (r.conns i).fd = -1) : Track r (r.put i ((r.conn i).restarted N))
  | move (r : Reactor T P) (i : Fin n) (c : Conn (T i) (P i)) (move : Move N False (r.conn i) c) :
      Track r (r.put i c)
  | poll (r : Reactor T P) : Track r
      (r.polled (S.poll r.world).2 ((S.poll r.world).1.map (S.source.targets (S.poll r.world).2)))
  | drain (r : Reactor T P) : Track r (r.seen (S.drain r.world))
  | netStop (r : Reactor T P) : Track r (r.netStop S)
  | halt (r : Reactor T P) : Track r r.halt
  | tick (r : Reactor T P) : Track r r.tick
  | hand (r : Reactor T P) (i : Fin n) : Track r (r.hand i)
  | begins (r : Reactor T P) (i : Fin n) : Track r (r.begins i)

variable {N S} in
/-- Only `Net::stop` is counted. -/
theorem Track.stops_eq {r r' : Reactor T P} (track : Track N S r r') :
    r'.stops = r.stops ∨ r' = r.netStop S := by
  cases track with
  | netStop => exact .inr rfl
  | _ => exact .inl rfl

/-- Every connection is attached and between two calls. -/
def Seated (r : Reactor T P) : Prop := ∀ i, Rest (r.conns i) ∧ (r.conns i).cookie ≠ 0

variable {N S}

/-- A call that enters a connection and goes on as `later` does. -/
theorem call_tracks {r : Reactor T P} {i : Fin n} {p later : Method (T i) (P i) Unit}
    {c : Conn (T i) (P i)} (first : Track N S r (r.put i c))
    (runs : Runs (Move N False) later c fun _ c' => Rest c')
    (executed : p.exec (r.conn i) = later.exec c) :
    Runs (Track N S) (call i p) r fun _ r' =>
      ∃ c', r' = r.put i c' ∧ Rest c' ∧ c'.cookie = c.cookie := by
  have path : ∀ {c' : Conn (T i) (P i)}, ReflTransGen (Move N False) c c' →
      ReflTransGen (Track N S) (r.put i c) (r.put i c') := by
    intro c' moves
    induction moves with
    | refl => exact .refl
    | @tail b d _ last ih =>
        have step : Track N S (r.put i b) ((r.put i b).put i d) := .move _ i d (by simpa using last)
        rw [Reactor.put_put] at step
        exact ih.tail step
  unfold Runs
  rw [call_exec (r := r) (executed.trans (Prod.mk.eta (p := later.exec c)).symm)]
  refine ⟨(ReflTransGen.single first).trans (path runs.1), fun u returned => ?_⟩
  exact ⟨_, rfl, runs.2 u returned, path_cookie runs.1⟩

/-- A method that settles a connection leaves it at rest. -/
theorem rested_runs {T : Transport.Layer ω} {P : Protocol.Layer ω} {later : Method T P Unit}
    {c : Conn T P} (grounded : Grounded c) (shaken : Shaken c)
    (runs : Runs (Move N False) later c fun _ c' => Settled c') :
    Runs (Move N False) later c fun _ c' => Rest c' :=
  (rested runs grounded shaken).weaken fun _ _ _ post => post.2

variable (fuel : Nat)

/-- The calls of the loop, on an attached connection. -/
theorem enter_tracks (i : Fin n) {entry : Entry} (alive : entry ≠ .destruct)
    (fixed : ∀ k, entry ≠ .attach k) {r : Reactor T P} (seated : Seated r) :
    Runs (Track N S) (call i (enter N fuel entry)) r fun _ r' => Seated r' := by
  have rest : Rest (r.conn i) := (seated i).1.seen r.world
  have first : Track N S r (r.put i ((r.conn i).log (.enter entry))) := .enter r i entry
  have later : ∀ {p : Prog (Reactor T P) Unit} {c : Conn (T i) (P i)},
      (Runs (Track N S) p r fun _ r' => ∃ c', r' = r.put i c' ∧ Rest c' ∧ c'.cookie = c.cookie) →
      c.cookie ≠ 0 → Runs (Track N S) p r fun _ r' => Seated r' := by
    intro p c runs attached
    refine runs.weaken ?_
    rintro - _ - ⟨c', rfl, rest', cookie⟩
    exact Reactor.forall_put (p := fun _ c => Rest c ∧ c.cookie ≠ 0) ⟨rest', cookie ▸ attached⟩
      fun j _ => seated j
  have attached : (r.conn i).cookie ≠ 0 := (seated i).2
  cases entry with
  | attach k => exact absurd rfl (fixed k)
  | handleEvent ev =>
      exact later (call_tracks first
        (rested_runs rest.grounded rest.shaken (handleEvent_runs fuel ev rest)) rfl) attached
  | heartbeat =>
      have entered : Rest ((r.conn i).log (.enter .heartbeat)) := rest.entered (by simp)
      refine later (call_tracks first ((heartbeat_runs fuel entered rfl).weaken ?_) rfl) attached
      intro _ c' path post
      exact post (path_grounded path rest.grounded) (path_shaken path rest.shaken)
  | stop =>
      exact later (call_tracks first
        (rested_runs rest.grounded rest.shaken (stop_runs fuel rest)) rfl) attached
  | restart =>
      by_cases done : (r.conn i).state.terminal = true
      · obtain ⟨next, executed, runs⟩ := restart_dials (N := N) (O := False) fuel rest done
        refine later (call_tracks (.restart r i attached (rest.grounded done))
          (rested_runs ?_ ?_ runs) executed) attached
        · exact fun done => by cases done
        · exact ⟨fun _ => asked_dialed _, fun state => by cases state⟩
      · have still : Runs (Move N False) (pure () : Method (T i) (P i) Unit)
            ((r.conn i).log (.enter .restart)) fun _ c' => Rest c' :=
          runs_pure (rest.entered (by simp))
        refine later (call_tracks first still ?_) attached
        have running : ¬ ((r.conn i).log (.enter .restart)).done = true := by
          rw [Conn.done_eq_terminal]
          exact done
        simp only [enter, restart, Prog.exec_modify_bind, Prog.exec_get_bind, if_neg running]
  | destruct => exact absurd rfl alive

theorem all_track {entry : Entry} (alive : entry ≠ .destruct) (fixed : ∀ k, entry ≠ .attach k)
    {r : Reactor T P} (seated : Seated r) :
    Runs (Track N S) (Prog.inTurn (fun i => call i (enter N fuel entry)) (List.finRange n)) r
      fun _ r' => Seated r' :=
  runs_inTurn (fun _ r => Seated r) (fun i _ _ seated => enter_tracks fuel i alive fixed seated) _ r
    seated

/-! Serving an event leaves alone what no call on a connection touches. -/

section Walks

variable {R : Reactor T P → Reactor T P → Prop}

theorem call_walks (put : ∀ r i c, R r (r.put i c)) (i : Fin n) (p : Method (T i) (P i) Unit) :
    Walks R (call i p) := by
  intro r
  exact ⟨.single (put r i _), fun _ _ => trivial⟩

theorem serveConn_walks (put : ∀ r i c, R r (r.put i c)) (hand : ∀ r i, R r (r.hand i))
    (begins : ∀ r i, R r (r.begins i)) (i : Fin n) (ev : Event) :
    Walks R (serveConn N fuel i ev) := by
  unfold serveConn
  refine walks_get.bind fun r => ?_
  split
  · refine ((walks_modify fun r => hand r i).bind fun _ => call_walks put i _).bind fun _ => ?_
    refine walks_get.bind fun r => ?_
    split
    · exact (walks_modify fun r => begins r i).bind fun _ => call_walks put i _
    · exact walks_pure ()
  · exact walks_pure ()

theorem ready_walks (put : ∀ r i c, R r (r.put i c)) (hand : ∀ r i, R r (r.hand i))
    (begins : ∀ r i, R r (r.begins i)) (i : Fin n) (ev : Event) :
    Walks R (serve N S.source fuel (.ready i ev)) := by
  intro r
  have walks := serveConn_walks (N := N) fuel put hand begins i ev r
  unfold Runs at walks ⊢
  rw [serve_ready]
  exact walks

theorem signal_walks (put : ∀ r i c, R r (r.put i c)) (seen : ∀ r w, R r (r.seen w))
    (halt : ∀ r, R r r.halt) : Walks R (serve N S.source fuel .signal) := by
  have signal : Walks R (serveSignal N fuel) := by
    unfold serveSignal
    refine walks_get.bind fun r => ?_
    split
    · exact (walks_modify halt).bind fun _ => walks_inTurn _ fun i _ => call_walks put i _
    · exact walks_pure ()
  intro r
  have walks := signal (r.seen (S.drain r.world))
  unfold Runs at walks ⊢
  rw [serve_signal]
  exact ⟨(ReflTransGen.single (seen r _)).trans walks.1, walks.2⟩

theorem serve_stops (event : Notice n) (r : Reactor T P) :
    ((serve N S.source fuel event).exec r).2.stops = r.stops := by
  have walks : Walks (fun r r' : Reactor T P => r'.stops = r.stops) (serve N S.source fuel event) := by
    cases event with
    | ready i ev => exact ready_walks fuel (fun _ _ _ => rfl) (fun _ _ => rfl) (fun _ _ => rfl) i ev
    | signal => exact signal_walks fuel (fun _ _ _ => rfl) (fun _ _ => rfl) fun _ => rfl
  exact (walks r).invariant (fun _ r' (kept : r'.stops = _) before => kept.trans before) rfl

theorem ready_stopping (i : Fin n) (ev : Event) (r : Reactor T P) :
    ((serve N S.source fuel (.ready i ev)).exec r).2.stopping = r.stopping := by
  have walks : Walks (fun r r' : Reactor T P => r'.stopping = r.stopping)
      (serve N S.source fuel (.ready i ev)) :=
    ready_walks fuel (fun _ _ _ => rfl) (fun _ _ => rfl) (fun _ _ => rfl) i ev
  exact (walks r).invariant (fun _ r' (kept : r'.stopping = _) before => kept.trans before) rfl

theorem initAll_keeps {β : Type} (f : Reactor T P → β) (put : ∀ r i c, f (r.put i c) = f r)
    (begins : ∀ r i, f (r.begins i) = f r) (r : Reactor T P) :
    f ((initAll N fuel).exec r).2 = f r := by
  have walks : Walks (fun r r' => f r' = f r) (initAll (T := T) (P := P) N fuel) :=
    walks_inTurn _ fun i _ => Walks.bind (walks_modify fun r => begins r i) fun _ => call_walks put i _
  exact (walks r).invariant (fun _ r' (kept : f r' = _) before => kept.trans before) rfl

/-- Nothing has been polled when the connections have been attached. -/
theorem initAll_singly (configs : ∀ i, ConnectionConfig (T i) (P i)) (w : ω) :
    ((initAll N fuel).exec (Reactor.make configs w)).2.Singly := by
  have none := initAll_keeps (N := N) fuel Reactor.batches (fun _ _ _ => rfl) (fun _ _ => rfl)
    (Reactor.make configs w)
  intro about member
  rw [none] at member
  exact absurd member List.not_mem_nil

/-- What neither a call on a connection nor serving an event changes is, after an iteration, as
it was after the poll. -/
theorem loop_keeps {β : Type} (f : Reactor T P → β) (put : ∀ r i c, f (r.put i c) = f r)
    (stop : ∀ r, f (r.netStop S) = f r) (tick : ∀ r, f r.tick = f r) {r : Reactor T P}
    (served : ∀ events, (S.poll r.world).1 = some events → ∀ event ∈ events,
      Walks (fun r r' => f r' = f r) (serve N S.source fuel event)) :
    f ((loop N S fuel).exec r).2 = f (r.polled (S.poll r.world).2
      ((S.poll r.world).1.map (S.source.targets (S.poll r.world).2))) := by
  let R (r r' : Reactor T P) : Prop := f r' = f r
  have noticed : ∀ event, Walks R (serve N S.source fuel event) →
      Walks R (notice N S.source fuel event) := by
    intro event serves
    refine serves.bind fun _ => walks_get.bind fun r => ?_
    split
    · exact walks_modify stop
    · exact walks_pure ()
  have batches : Walks R (batch N S.source fuel (S.poll r.world).1) := by
    rcases polled : (S.poll r.world).1 with _ | events
    · exact walks_modify stop
    · exact walks_inTurn events fun event member => noticed event (served events polled event member)
  have beats : ∀ r₁ : Reactor T P,
      Walks R (if r₁.counter &&& 63 = 0 then heartbeatAll N fuel else pure ()) := by
    intro r₁
    split
    · exact walks_inTurn _ fun i _ => call_walks put i _
    · exact walks_pure ()
  have rest := batches.bind fun _ => (walks_modify tick).bind fun _ => walks_get.bind beats
  exact (rest _).invariant (fun _ r' (kept : f r' = _) before => kept.trans before) rfl

/-- Without a signal an iteration does not set `stopping`. -/
theorem loop_stopping {r : Reactor T P}
    (calm : ∀ events, (S.poll r.world).1 = some events → Notice.signal ∉ events) :
    ((loop N S fuel).exec r).2.stopping = r.stopping := by
  refine loop_keeps fuel Reactor.stopping (fun _ _ _ => rfl) (fun _ => rfl) (fun _ => rfl) ?_
  intro events polled event member
  cases event with
  | signal => exact absurd member (calm events polled)
  | ready i ev => exact ready_walks fuel (fun _ _ _ => rfl) (fun _ _ => rfl) (fun _ _ => rfl) i ev

/-- Only the poll adds to the batches. -/
theorem loop_batches (r : Reactor T P) :
    ((loop N S fuel).exec r).2.batches =
      ((S.poll r.world).1.map (S.source.targets (S.poll r.world).2)).toList ++ r.batches := by
  refine loop_keeps fuel Reactor.batches (fun _ _ _ => rfl) (fun _ => rfl) (fun _ => rfl) ?_
  intro _ _ event _
  cases event with
  | signal => exact signal_walks fuel (fun _ _ _ => rfl) (fun _ _ => rfl) fun _ => rfl
  | ready i ev => exact ready_walks fuel (fun _ _ _ => rfl) (fun _ _ => rfl) (fun _ _ => rfl) i ev

/-- A connection that is done is left alone. -/
theorem serve_done {i : Fin n} {ev : Event} {r : Reactor T P} (done : (r.conns i).done = true) :
    (serve N S.source fuel (.ready i ev)).exec r = (some (), r) := by
  rw [serve_ready, serveConn, Prog.exec_get_bind, if_neg (by simp [done])]
  rfl

end Walks

/-- `init`, with the connections of `left` still to be attached. -/
structure Seating (left : List (Fin n)) (r : Reactor T P) : Prop where
  nodup : left.Nodup
  rest : ∀ i, Rest (r.conns i)
  attached : ∀ i, i ∉ left → (r.conns i).cookie ≠ 0
  fresh : ∀ i ∈ left, (r.conns i).cookie = 0 ∧ (r.conns i).fd = -1

theorem attach_tracks {i : Fin n} {left : List (Fin n)} {r : Reactor T P}
    (seating : Seating (i :: left) r) :
    Runs (Track N S) (attachConn N fuel i) r fun _ r' => Seating left r' := by
  obtain ⟨zero, idle⟩ := seating.fresh i List.mem_cons_self
  obtain ⟨absent, nodup⟩ := List.nodup_cons.mp seating.nodup
  obtain ⟨later, executed, runs⟩ := attach_dials (N := N) (O := False) (c := r.conn i) fuel
    (i.val + 1) zero
  refine runs_modify_bind (.begins r i) ((call_tracks (r := r.begins i) (.attach _ i zero idle)
    (rested_runs ?_ ?_ runs) executed).weaken ?_)
  · exact fun done => by cases done
  · exact ⟨fun _ => asked_dialed _, fun state => by cases state⟩
  · rintro - _ - ⟨c', rfl, rest', cookie⟩
    refine ⟨nodup, Reactor.forall_put rest' fun j _ => seating.rest j, ?_, ?_⟩
    · refine Reactor.forall_put (p := fun j c => j ∉ left → c.cookie ≠ 0) (fun _ => ?_) ?_
      · rw [cookie]
        exact Nat.succ_ne_zero i.val
      · intro j other outside
        exact seating.attached j (List.not_mem_cons_of_ne_of_not_mem other outside)
    · intro j member
      have other : j ≠ i := fun same => absent (same ▸ member)
      rw [Reactor.put_conns_other _ other]
      exact seating.fresh j (List.mem_cons_of_mem i member)

theorem serve_tracks (event : Notice n) {r : Reactor T P} (seated : Seated r) :
    Runs (Track N S) (serve N S.source fuel event) r fun _ r' => Seated r' := by
  cases event with
  | signal =>
      have drained : Seated (r.seen (S.drain r.world)) := seated
      have runs : Runs (Track N S) (serveSignal N fuel) (r.seen (S.drain r.world))
          fun _ r' => Seated r' := by
        refine runs_get_bind ?_
        split
        · exact runs_modify_bind (.halt _)
            (all_track fuel (by simp) (by simp) (r := (r.seen (S.drain r.world)).halt) drained)
        · exact runs_pure drained
      unfold Runs at runs ⊢
      rw [serve_signal]
      exact ⟨(ReflTransGen.single (.drain r)).trans runs.1, runs.2⟩
  | ready i ev =>
      have runs : Runs (Track N S) (serveConn N fuel i ev) r fun _ r' => Seated r' := by
        refine runs_get_bind ?_
        split
        · refine Runs.bind (Q := fun _ r' => Seated r') ?_ ?_
          · exact runs_modify_bind (.hand r i)
              (enter_tracks fuel i (by simp) (by simp) (r := r.hand i) seated)
          · rintro - r₁ - seated₁
            refine runs_get_bind ?_
            split
            · exact runs_modify_bind (.begins r₁ i)
                (enter_tracks fuel i (by simp) (by simp) (r := r₁.begins i) seated₁)
            · exact runs_pure seated₁
        · exact runs_pure seated
      unfold Runs at runs ⊢
      rw [serve_ready]
      exact runs

theorem notice_tracks (event : Notice n) {r : Reactor T P} (seated : Seated r) :
    Runs (Track N S) (notice N S.source fuel event) r fun _ r' => Seated r' := by
  refine (serve_tracks fuel event seated).bind ?_
  rintro - r₁ - seated₁
  refine runs_get_bind ?_
  split
  · exact runs_modify (.netStop r₁) seated₁
  · exact runs_pure seated₁

theorem batch_tracks (events : Option (List (Notice n))) {r : Reactor T P} (seated : Seated r) :
    Runs (Track N S) (batch N S.source fuel events) r fun _ r' => Seated r' := by
  cases events with
  | none => exact runs_modify (.netStop r) seated
  | some events =>
      exact runs_inTurn (fun _ r => Seated r)
        (fun event _ _ seated => notice_tracks fuel event seated) events r seated

theorem loop_tracks {r : Reactor T P} (seated : Seated r) :
    Runs (Track N S) (loop N S fuel) r fun _ r' => Seated r' := by
  refine runs_get_bind (runs_modify_bind (.poll r) ?_)
  have polled : Seated (r.polled (S.poll r.world).2
      ((S.poll r.world).1.map (S.source.targets (S.poll r.world).2))) := seated
  refine (batch_tracks fuel (S.poll r.world).1 polled).bind ?_
  rintro - r₁ - seated₁
  refine runs_modify_bind (.tick r₁) (runs_get_bind ?_)
  split
  · exact all_track fuel (by simp) (by simp) (r := r₁.tick) seated₁
  · exact runs_pure seated₁

theorem initAll_tracks (configs : ∀ i, ConnectionConfig (T i) (P i)) (w : ω) :
    Runs (Track N S) (initAll N fuel) (Reactor.make configs w) fun _ r => Seated r := by
  have start : Seating (List.finRange n) (Reactor.make configs w) :=
    ⟨List.nodup_finRange n, fun _ => make_rest _ _ _ _ w,
      fun i outside => absurd (List.mem_finRange i) outside, fun _ _ => ⟨rfl, rfl⟩⟩
  refine (runs_inTurn Seating (fun _ _ _ seating => attach_tracks fuel seating) _ _ start).weaken ?_
  rintro - r - seating
  exact fun i => ⟨seating.rest i, seating.attached i List.not_mem_nil⟩

/-- **Every run of a reactor is a path of `Track`**, whether or not it returns. -/
theorem run_tracks (k : Nat) (configs : ∀ i, ConnectionConfig (T i) (P i)) (w : ω) :
    Runs (Track N S) (run N S fuel k) (Reactor.make configs w) fun _ r => Seated r := by
  refine (initAll_tracks fuel configs w).bind ?_
  rintro - r - seated
  exact runs_inTurn (fun _ r => Seated r) (fun _ _ _ seated => loop_tracks fuel seated) _ r seated

end Manet.Reactor
