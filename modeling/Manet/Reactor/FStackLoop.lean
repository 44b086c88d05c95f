/-
# Manet.Reactor.FStackLoop — the loop over kqueue's own events

The template of `Manet.Reactor.Loop` over F-Stack.  An event is a signal if its identifier
and filter are those of the note that `signal` triggers; otherwise its user data is followed as
the address of a connection.  `ff_run` calls the loop without end.

The loop is the loop over notices, and every address that is followed is a connection's
(`fstack_loop_refines`); nothing is asked of the addresses but that they differ.  It is so for a
simple reason: no event is ever a signal.  The note that `signal` would trigger is never added,
so a reactor on F-Stack is never told to stop, and a call of `signal` changes nothing
(`fstack_never_stops`).
-/
import Manet.Net.ScriptedFStack
import Manet.Reactor.Reading
import Manet.Reactor.Registration
import Manet.Reactor.Shutdown

namespace Manet.Net

set_option autoImplicit false

namespace FStack

variable {ω : Type} {queues : ω → Queues}

/-- Nothing happened to the descriptors or the static member. -/
def Same (queues : ω → Queues) (s s' : FStack ω) : Prop :=
  ∃ w, s' = { s with world := w } ∧ queues w = queues s.world

instance : IsPreorder (FStack ω) (Same queues) where
  refl s := ⟨s.world, rfl, rfl⟩
  trans _ _ _ := by
    rintro ⟨w₁, rfl, same₁⟩ ⟨w₂, rfl, same₂⟩
    exact ⟨w₂, rfl, same₂.trans same₁⟩

theorem Same.unmoved {s s' : FStack ω} (same : Same queues s s') : Unmoved (table queues) s s' := by
  obtain ⟨w, rfl, same⟩ := same
  exact fun _ => table_world same

instance : IsPreorder (FStack ω) (Silent queues) where
  refl _ := ⟨rfl, id⟩
  trans _ _ _ first second := by
    refine ⟨second.kq.trans first.kq, fun none d => ?_⟩
    have later := second.user fun d => by rw [first.kq]; exact first.user none d
    rw [← first.kq]
    exact later d

theorem Same.silent {s s' : FStack ω} (same : Same queues s s') : Silent queues s s' := by
  obtain ⟨w, rfl, same⟩ := same
  exact silent_world same

theorem backend_silent {F : Ff ω} (kqueue : Kqueue F queues) (address : Nat → UInt64) :
    (backend F address).Respects (Silent queues) where
  getaddrinfo host port s := silent_world (kqueue.getaddrinfo host port s.world)
  socket ai s := by
    refine ⟨rfl, fun none d => ?_⟩
    by_cases failed : (F.socket ai s.world).1.value < 0
    · exact (silent_world (kqueue.refused ai s.world failed)).user none d
    · show (queues (F.socket ai s.world).2).note s.kq d .user = .none
      rw [(kqueue.socket ai s.world (Int.not_lt.mp failed)).2]
      exact none d
  ioctl fd s := silent_world (kqueue.ioctl fd s.world)
  connect fd ai s := silent_world (kqueue.connect fd ai s.world)
  close fd s := by
    refine ⟨rfl, fun none d => ?_⟩
    show (queues (F.close fd s.world)).note s.kq d .user = .none
    rw [kqueue.close fd s.world]
    simp only [Queues.closing]
    split
    · rfl
    · exact none d
  getsockopt fd s := silent_world (kqueue.getsockopt fd s.world)
  subscribe k fd r wr s := (subscribe_tuned kqueue (address k) r wr).silent
  clear fd s := (change_tuned kqueue (deletions_concern 0 fd false false)).silent
  read fd len s := silent_world (kqueue.read fd len s.world)
  write fd bytes s := silent_world (kqueue.write fd bytes s.world)

end FStack

end Manet.Net

namespace Manet.Reactor

open Manet.Flow Manet.Net Relation

set_option autoImplicit false
set_option linter.dupNamespace false

variable {ω : Type} {n : Nat}
variable {T : Fin n → Transport.Layer (FStack ω)} {P : Fin n → Protocol.Layer (FStack ω)}

/-! ## The loop of the source -/

section Source

variable (F : Ff ω) (address : Nat → UInt64)

/-- What `ff_kevent` stores, and the functions on it. -/
def fstackSource : EventSource (FStack ω) n where
  Ev := Kevent
  poll := FStack.poll F (n + 1)
  evSignal ev s := (FStack.evSignal ev, s)
  getUserData ev := pointee address n (FStack.getUserData ev)
  flags := FStack.event
  stop := FStack.stop F

/-- `Reactor::run`, after `Net::init`: the connections are attached, and `ff_run` calls the loop,
here `k` times. -/
def fstackRun (fuel k : Nat) : Prog (Reactor T P) Unit :=
  run (FStack.backend F address) (fstackSource F address) fuel k

variable {F} {queues : ω → Queues} (kqueue : Kqueue F queues)

/-- Its events, read at the poll. -/
def fstackSelector : Selector (FStack ω) n :=
  (fstackSource F address).selector
    (fun _ events found => (kqueue.reports _ _ _ events found).1.trans (Nat.min_le_left _ _)) id

theorem fstackSelector_same : (fstackSelector (n := n) address kqueue).Respects (FStack.Same queues) where
  poll s := ⟨_, rfl, kqueue.wait s.kq (min (n + 1) (2 ^ 31 - 1)) s.world⟩
  drain s := ⟨s.world, rfl, rfl⟩

theorem fstackSource_read {s : FStack ω} {ev : Kevent} {i : Fin n} (other : FStack.evSignal ev = false)
    (points : pointee address n (FStack.getUserData ev) = some i) :
    (fstackSource F address).read s ev = some (.ready i (FStack.event ev)) := by
  unfold EventSource.read
  simp only [fstackSource, other, points, Bool.false_eq_true, if_false, Option.map_some]

end Source

/-! One board, to run it on. -/

/-- The first connection is at its end, and then the wait fails. -/
def shortly : Board := { ready := [some [(4, .read, FStack.EV_EOF)], none] }

/-- Connections without encryption, over one kqueue. -/
def flock (b : Board) :
    Reactor (n := 2) (fun _ => Transport.plain (FStack.backend board pages) 1) (fun _ => parting) :=
  Reactor.make (fun _ => ⟨"host", 80, (), ()⟩) (FStack.init board none { world := b }).2

theorem flock_same (address : Nat → UInt64) :
    (Transport.plain (FStack.backend board address) 1).Respects (FStack.Same Board.queues) :=
  Transport.plain_respects (fun fd len s => ⟨_, rfl, board_kqueue.read fd len s.world⟩)
    (fun fd bytes s => ⟨_, rfl, board_kqueue.write fd bytes s.world⟩) 1

/-! ## No event is a signal -/

section Run

variable {address : Nat → UInt64} {queues : ω → Queues} {F : Ff ω} {t₀ : Table}

/-- Before `Net::stop` the kqueue has the notes of the connections, and no other; afterwards
there is no kqueue. -/
structure Noted (address : Nat → UInt64) (queues : ω → Queues) (t₀ : Table) (r : Reactor T P) :
    Prop where
  mirrors : r.stops = 0 → Mirrors address t₀ (FStack.table queues r.world) r.conns
  user : r.stops = 0 → ∀ d, (queues r.world.world).note r.world.kq d .user = none
  dead : r.stops ≠ 0 → r.world.kq = -1

/-- An event has the address of a connection, and is no signal. -/
theorem reports_pointee (distinct : DistinctAddresses address n) (silent : ∀ fd, t₀.watch fd = Watch.none)
    {r : Reactor T P} (mirrors : Mirrors address t₀ (FStack.table queues r.world) r.conns)
    (user : ∀ d, (queues r.world.world).note r.world.kq d .user = none) {ev : Kevent}
    (noted : (queues r.world.world).note r.world.kq ev.ident ev.filter = some ev.udata) :
    FStack.evSignal ev = false ∧ ∃ i : Fin n, pointee address n (FStack.getUserData ev) = some i := by
  have real : ev.filter ≠ .user := by
    intro isUser
    rw [isUser, user] at noted
    cases noted
  refine ⟨decide_eq_false fun both => real both.2, ?_⟩
  have opened : ev.ident ∈ (FStack.table queues r.world).opened :=
    (queues r.world.world).noted _ _ _ real (by rw [noted]; exact Option.some_ne_none _)
  -- every note is read by one of the two directions
  have heard : ∀ {data}, ((FStack.table queues r.world).watch ev.ident).Only data → ev.udata = data := by
    intro data only
    cases filter : ev.filter with
    | read =>
        rw [filter] at noted
        exact only.read _ noted
    | write =>
        rw [filter] at noted
        exact only.write _ noted
    | user => exact absurd filter real
  by_cases held : ∃ i, (r.conns i).fd = ev.ident
  · obtain ⟨i, same⟩ := held
    have some' : (r.conns i).fd ≠ -1 := fun idle =>
      (FStack.table queues r.world).idle_not_mem (idle ▸ same ▸ opened)
    have own := (mirrors.enrolled i).own some'
    rw [same] at own
    have cookie := (mirrors.cookie i).resolve_left fun unattached => some' unattached.2
    refine ⟨i, ?_⟩
    unfold FStack.getUserData
    rw [heard own, cookie]
    exact pointee_address distinct i
  · have none := (mirrors.others ev.ident fun i same => held ⟨i, same⟩).2
    rw [silent] at none
    -- nothing is watched there, so that every pointer would be right
    have zero : ev.udata = 0 := heard (by rw [none]; exact Watch.only_none 0)
    have one : ev.udata = 1 := heard (by rw [none]; exact Watch.only_none 1)
    exact absurd (zero.symm.trans one) (by decide)

section Step

variable (kqueue : Kqueue F queues) (transports : ∀ i, (T i).Respects (FStack.Same queues))
variable (protocols : ∀ i, (P i).Respects (FStack.Same queues)) (fuel : Nat)

include transports protocols in
theorem Track.noted {r r' : Reactor T P}
    (track : Track (FStack.backend F address) (fstackSelector address kqueue) r r')
    (noted : Noted address queues t₀ r) : Noted address queues t₀ r' := by
  have mirrors := track.mirrors (FStack.fstack_registers kqueue address)
    (fun i => (transports i).mono fun _ _ => FStack.Same.unmoved)
    (fun i => (protocols i).mono fun _ _ => FStack.Same.unmoved)
    ((fstackSelector_same address kqueue).mono fun _ _ => FStack.Same.unmoved) noted.mirrors
  have ended : (r.netStop (fstackSelector address kqueue).source).world.kq = -1 := by
    show (FStack.stop F r.world).kq = -1
    unfold FStack.stop
    split
    · rfl
    next negative =>
      by_cases running : r.stops = 0
      · have up : r.world.kq ∈ (queues r.world.world).queues := (noted.mirrors running).up
        exact absurd ((queues r.world.world).proper _ ((queues r.world.world).within up)) negative
      · exact noted.dead running
  rcases track.respects (FStack.backend_silent kqueue address)
    (fun i => (transports i).mono fun _ _ => FStack.Same.silent)
    (fun i => (protocols i).mono fun _ _ => FStack.Same.silent)
    ((fstackSelector_same address kqueue).mono fun _ _ => FStack.Same.silent) with silent | rfl
  · rcases track.stops_eq with same | rfl
    · refine ⟨mirrors, fun running d => ?_, fun stopped => ?_⟩
      · rw [silent.kq]
        exact silent.user (noted.user (same ▸ running)) d
      · rw [silent.kq]
        exact noted.dead (same ▸ stopped)
    · exact ⟨mirrors, fun running => absurd running (Nat.succ_ne_zero _), fun _ => ended⟩
  · exact ⟨mirrors, fun running => absurd running (Nat.succ_ne_zero _), fun _ => ended⟩

include kqueue in
/-- The events a wait finds. -/
theorem poll_pointee (distinct : DistinctAddresses address n) (silent : ∀ fd, t₀.watch fd = Watch.none)
    {r : Reactor T P} (noted : Noted address queues t₀ r) {events : List Kevent}
    (found : (FStack.poll F (n + 1) r.world).1 = some events) :
    r.stops = 0 ∧ ∀ ev ∈ events, FStack.evSignal ev = false ∧
      ∃ i : Fin n, pointee address n (FStack.getUserData ev) = some i := by
  have running : r.stops = 0 := by
    by_contra stopped
    have gone : r.world.kq ∉ (queues r.world.world).queues := by
      rw [noted.dead stopped]
      intro member
      exact absurd ((queues r.world.world).proper _ ((queues r.world.world).within member)) (by decide)
    have failed := kqueue.waitBad r.world.kq (min (n + 1) (2 ^ 31 - 1)) r.world.world gone
    cases failed.symm.trans found
  refine ⟨running, fun ev member => ?_⟩
  exact reports_pointee distinct silent (noted.mirrors running) (noted.user running)
    ((kqueue.reports _ _ _ events found).2 ev member)

/-- So no iteration finds a signal. -/
theorem poll_calm (distinct : DistinctAddresses address n) (silent : ∀ fd, t₀.watch fd = Watch.none)
    {r : Reactor T P} (noted : Noted address queues t₀ r) (batch : List (Notice n))
    (polled : ((fstackSelector address kqueue).poll r.world).1 = some batch) :
    Notice.signal ∉ batch := by
  obtain ⟨events, found, rfl⟩ := Option.map_eq_some_iff.mp polled
  intro member
  obtain ⟨ev, there, means⟩ := List.mem_filterMap.mp member
  obtain ⟨other, i, points⟩ := (poll_pointee kqueue distinct silent noted found).2 ev there
  rw [fstackSource_read address other points] at means
  cases means

/-- **One iteration of the two loops.** -/
theorem fstackLoop_exec (distinct : DistinctAddresses address n) (silent : ∀ fd, t₀.watch fd = Watch.none)
    {r : Reactor T P} (noted : Noted address queues t₀ r) :
    (loop (FStack.backend F address) (fstackSource F address) fuel).exec r =
      (loop (FStack.backend F address) (fstackSelector address kqueue).source fuel).exec r := by
  refine EventSource.loop_reads
    (fun rest _ => ∀ ev ∈ rest, FStack.evSignal ev = false ∧
      ∃ i : Fin n, pointee address n (FStack.getUserData ev) = some i) (fun events found => ?_) ?_
  · exact (poll_pointee kqueue distinct silent noted found).2
  · intro ev rest r' aimed
    obtain ⟨other, i, points⟩ := aimed ev List.mem_cons_self
    refine ⟨.ready i (FStack.event ev), fstackSource_read address other points,
      EventSource.notice_ready ?_ points, fun _ _ ev' member => aimed ev' (List.mem_cons_of_mem ev member)⟩
    simp only [fstackSource, other]

end Step

section Whole

variable (kqueue : Kqueue F queues) {config : Option String} {s s₀ : FStack ω}
variable (started : FStack.init F config s = (.ok (), s₀)) (distinct : DistinctAddresses address n)
variable (transports : ∀ i, (T i).Respects (FStack.Same queues))
variable (protocols : ∀ i, (P i).Respects (FStack.Same queues)) (fuel : Nat)

include kqueue started in
/-- The kqueue of a backend that has just been started. -/
theorem init_silent (fd : Int) : (FStack.table queues s₀).watch fd = Watch.none := by
  have none := (FStack.init_starts kqueue started).2 fd
  simp only [FStack.table, none]
  rfl

include kqueue started in
theorem init_noted (configs : ∀ i, ConnectionConfig (T i) (P i)) :
    Noted address queues (FStack.table queues s₀) (Reactor.make configs s₀) :=
  ⟨fun _ => make_mirrors configs s₀ (FStack.init_starts kqueue started).1,
    fun _ d => (FStack.init_starts kqueue started).2 d .user, fun stopped => absurd rfl stopped⟩

include started distinct transports protocols in
theorem loops_agree (k : Nat) {r : Reactor T P} (seated : Seated r)
    (noted : Noted address queues (FStack.table queues s₀) r) (running : r.stopping = false) :
    (loops (FStack.backend F address) (fstackSource F address) fuel k).exec r =
        (loops (FStack.backend F address) (fstackSelector address kqueue).source fuel k).exec r ∧
      ((loops (FStack.backend F address) (fstackSelector address kqueue).source fuel k).exec r).2.stopping =
        false := by
  induction k generalizing r with
  | zero => exact ⟨rfl, running⟩
  | succ k ih =>
      have silent := init_silent kqueue started
      have same := fstackLoop_exec (F := F) kqueue fuel distinct silent noted
      have still := loop_stopping (N := FStack.backend F address) (S := fstackSelector address kqueue)
        fuel (poll_calm kqueue distinct silent noted)
      have tracks := loop_tracks (N := FStack.backend F address) (S := fstackSelector address kqueue)
        fuel seated
      unfold loops at ih ⊢
      unfold Runs at tracks
      rw [List.replicate_succ, Prog.inTurn, Prog.inTurn]
      rcases executed : (loop (FStack.backend F address) (fstackSelector address kqueue).source fuel).exec r
        with ⟨_ | u, r₁⟩
      · rw [executed] at still
        rw [Prog.exec_bind_none (same.trans executed), Prog.exec_bind_none executed]
        exact ⟨rfl, still.trans running⟩
      · rw [executed] at still tracks
        rw [Prog.exec_bind_some (same.trans executed), Prog.exec_bind_some executed]
        refine ih (tracks.2 u rfl) ?_ (still.trans running)
        exact path_invariant (fun _ _ track => track.noted kqueue transports protocols) tracks.1 noted

include started distinct transports protocols in
theorem fstackRun_exec (k : Nat) (configs : ∀ i, ConnectionConfig (T i) (P i)) :
    (fstackRun F address fuel k).exec (Reactor.make configs s₀) =
        (run (FStack.backend F address) (fstackSelector address kqueue).source fuel k).exec
          (Reactor.make configs s₀) ∧
      ((fstackRun F address fuel k).exec (Reactor.make configs s₀)).2.stopping = false := by
  have tracks := initAll_tracks (N := FStack.backend F address) (S := fstackSelector address kqueue)
    fuel configs s₀
  have still := initAll_keeps (N := FStack.backend F address) fuel Reactor.stopping (fun _ _ _ => rfl)
    (fun _ _ => rfl) (Reactor.make configs s₀)
  unfold Runs at tracks
  unfold fstackRun run
  rcases attached : (initAll (FStack.backend F address) fuel).exec (Reactor.make configs s₀) with ⟨_ | u, r₁⟩
  · rw [attached] at still
    rw [Prog.exec_bind_none attached, Prog.exec_bind_none attached]
    exact ⟨rfl, still⟩
  · rw [attached] at still tracks
    rw [Prog.exec_bind_some attached, Prog.exec_bind_some attached]
    have noted := path_invariant (fun _ _ track => track.noted kqueue transports protocols) tracks.1
      (init_noted kqueue started configs)
    obtain ⟨same, running⟩ := loops_agree kqueue started distinct transports protocols fuel k
      (tracks.2 u rfl) noted still
    exact ⟨same, same ▸ running⟩

include kqueue started distinct transports protocols in
/-- **A reactor on F-Stack is never told to stop.**  However long it has run, it is not stopping,
no connection has been stopped, and a call of `signal` would leave the kqueue as it is. -/
theorem fstack_never_stops (k : Nat) (configs : ∀ i, ConnectionConfig (T i) (P i)) :
    let r := ((fstackRun F address fuel k).exec (Reactor.make configs s₀)).2
    r.stopping = false ∧ (∀ i, stopped (r.conns i).history = false) ∧
      queues (FStack.signal F r.world).world = queues r.world.world := by
  intro r
  obtain ⟨same, running⟩ := fstackRun_exec kqueue started distinct transports protocols fuel k configs
  refine ⟨running, fun i => ?_, ?_⟩
  · have runs := run_advances (N := FStack.backend F address) (S := fstackSelector address kqueue) fuel k
      configs s₀
    have final := runs.invariant (fun _ _ advance => advance.final)
      (make_final configs s₀)
    rw [← same] at final
    by_contra past
    have told := final.signalled i (by simpa using past)
    cases running.symm.trans told
  · have runs := run_tracks (N := FStack.backend F address) (S := fstackSelector address kqueue) fuel k
      configs s₀
    have noted := runs.invariant (fun _ _ track => track.noted kqueue transports protocols)
      (init_noted kqueue started configs)
    rw [← same] at noted
    by_cases alive : r.stops = 0
    · exact FStack.signal_refused kqueue (noted.user alive FStack.KILL_IDENT)
    · refine kqueue.bad r.world.kq _ r.world.world ?_
      rw [noted.dead alive]
      intro member
      exact absurd ((queues r.world.world).proper _ ((queues r.world.world).within member)) (by decide)

/-- Two connections that run on. -/
theorem fstack_never_stops_shortly :
    let r := ((fstackRun board pages 9 1).exec (flock shortly)).2
    r.stops = 0 ∧ r.stopping = false ∧ (∀ i, stopped (r.conns i).history = false) ∧
      (FStack.signal board r.world).world.queues = r.world.world.queues :=
  ⟨by decide +kernel, fstack_never_stops (P := fun _ => parting) board_kqueue
    (show FStack.init board none { world := shortly } = (.ok (), _) from rfl) pages_distinct (fun _ => flock_same pages)
    (fun _ => parting_respects _) 9 1 fun _ => ⟨"host", 80, (), ()⟩⟩

include started distinct transports protocols in
/-- **The loop over kqueue's events is the loop over notices**, for as long as it runs: no
address is followed but a connection's. -/
theorem fstack_loop_refines (k : Nat) (configs : ∀ i, ConnectionConfig (T i) (P i)) :
    (fstackRun F address fuel k).exec (Reactor.make configs s₀) =
      (run (FStack.backend F address) (fstackSelector address kqueue).source fuel k).exec
        (Reactor.make configs s₀) :=
  (fstackRun_exec kqueue started distinct transports protocols fuel k configs).1

/-- The loop goes on after the end of its kqueue. -/
theorem fstack_loop_refines_shortly :
    let ran := (fstackRun board pages 9 3).exec (flock shortly)
    ran.1 = some () ∧ ran.2.stops = 2 ∧ ran.2.world.kq = -1 ∧
      ran = (run (FStack.backend board pages) (fstackSelector pages board_kqueue).source 9 3).exec
        (flock shortly) :=
  ⟨by decide +kernel, by decide +kernel, by decide +kernel,
    fstack_loop_refines (P := fun _ => parting) board_kqueue
      (show FStack.init board none { world := shortly } = (.ok (), _) from rfl) pages_distinct (fun _ => flock_same pages)
      (fun _ => parting_respects _) 9 3 fun _ => ⟨"host", 80, (), ()⟩⟩

end Whole

end Run

end Manet.Reactor
