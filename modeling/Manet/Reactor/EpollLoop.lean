/-
# Manet.Reactor.EpollLoop — the loop over epoll's own events

The template of `Manet.Reactor.Loop`, over what `epoll_wait` stores: a mask, and eight bytes that
are a descriptor if they are the eventfd's and the address of a connection otherwise.  Which of
the two they are is decided event by event, against the `_signal_fd` of that moment; an address
is then followed.

`epoll_loop_refines` says that this loop and the one over notices do the same, so every event
reaches the connection that registered for it and no other address is ever followed.  What the
kernel lists is what the connections asked for (`Manet.Reactor.Registration`), so each event has
its reader.  The proof needs two things of the outside.  The low half of an address must not be
the number of the eventfd, nor the `-1` that `Net::stop` leaves in its place: the union does not
tell them apart (`address_mistaken`).  And no second signal may arrive in the batch that ends the
last connection: `Net::stop` has forgotten the number by then, and the signal is followed as an
address (`second_signal_followed`).

The kernel reports a descriptor once in a wait, and a connection has one descriptor.  So no batch
has two events of one connection, and none of them is stale (`epoll_events_current`).
-/
import Manet.Reactor.Reading
import Manet.Reactor.Registration
import Manet.Reactor.Staleness

namespace Manet.Net

set_option autoImplicit false

namespace Epoll

variable {ω : Type} {files : ω → Files}

/-- Nothing happened to the descriptors or the static members. -/
def Same (files : ω → Files) (s s' : Epoll ω) : Prop :=
  ∃ w, s' = { s with world := w } ∧ files w = files s.world

instance : IsPreorder (Epoll ω) (Same files) where
  refl s := ⟨s.world, rfl, rfl⟩
  trans _ _ _ := by
    rintro ⟨w₁, rfl, same₁⟩ ⟨w₂, rfl, same₂⟩
    exact ⟨w₂, rfl, same₂.trans same₁⟩

theorem Same.unmoved {s s' : Epoll ω} (same : Same files s s') : Unmoved (table files) s s' := by
  obtain ⟨w, rfl, same⟩ := same
  exact fun _ => table_world same

/-- The static members are as they were. -/
structure Static (s s' : Epoll ω) : Prop where
  eventFd : s'.eventFd = s.eventFd
  signalFd : s'.signalFd = s.signalFd
  alive : s'.alive = s.alive

instance : IsPreorder (Epoll ω) Static where
  refl _ := ⟨rfl, rfl, rfl⟩
  trans _ _ _ first second := ⟨second.eventFd.trans first.eventFd,
    second.signalFd.trans first.signalFd, second.alive.trans first.alive⟩

theorem Same.static {s s' : Epoll ω} (same : Same files s s') : Static s s' := by
  obtain ⟨w, rfl, -⟩ := same
  exact ⟨rfl, rfl, rfl⟩

theorem evSignal_signal (L : Linux ω) {s : Epoll ω} {ev : EpollEvent} (signal : s.isSignal ev = true) :
    evSignal L ev s = (true, { s with world := (L.read s.signalFd 8 s.world).2 }) := by
  rw [evSignal, if_pos signal]

theorem evSignal_other (L : Linux ω) {s : Epoll ω} {ev : EpollEvent} (other : s.isSignal ev = false) :
    evSignal L ev s = (false, s) := by
  rw [evSignal, if_neg (by simp [other])]

theorem backend_static (L : Linux ω) (address : Nat → UInt64) :
    (backend L address).Respects Static where
  getaddrinfo _ _ _ := ⟨rfl, rfl, rfl⟩
  socket _ _ := ⟨rfl, rfl, rfl⟩
  ioctl _ _ := ⟨rfl, rfl, rfl⟩
  connect _ _ _ := ⟨rfl, rfl, rfl⟩
  close _ _ := ⟨rfl, rfl, rfl⟩
  getsockopt _ _ := ⟨rfl, rfl, rfl⟩
  subscribe k fd r wr s := by
    show Static s (subscribe L (address k) fd r wr s)
    unfold subscribe
    dsimp only
    split
    · split
      · exact ⟨rfl, rfl, rfl⟩
      · split <;> exact ⟨rfl, rfl, rfl⟩
    · exact ⟨rfl, rfl, rfl⟩
  clear _ _ := ⟨rfl, rfl, rfl⟩
  read _ _ _ := ⟨rfl, rfl, rfl⟩
  write _ _ _ := ⟨rfl, rfl, rfl⟩

end Epoll

end Manet.Net

namespace Manet.Reactor

open Manet.Flow Manet.Net Relation

set_option autoImplicit false
set_option linter.dupNamespace false

variable {ω : Type} {n : Nat}
variable {T : Fin n → Transport.Layer (Epoll ω)} {P : Fin n → Protocol.Layer (Epoll ω)}

/-! ## The loop of the source -/

section Source

variable (L : Linux ω) (address : Nat → UInt64)

/-- What `epoll_wait` stores, and the functions on it. -/
def epollSource : EventSource (Epoll ω) n where
  Ev := EpollEvent
  poll := Epoll.poll L (n + 1)
  evSignal := Epoll.evSignal L
  getUserData ev := pointee address n (Epoll.getUserData ev)
  flags := Epoll.event
  stop := Epoll.stop L

/-- `Reactor::run`, after `Net::init`: the connections are attached, and `Epoll::run` goes on
while it is alive, here for at most `k` iterations. -/
def epollRun (fuel k : Nat) : Prog (Reactor T P) Unit := do
  initAll (Epoll.backend L address) fuel
  Prog.loopWhile (fun r => r.world.alive)
    (loop (Epoll.backend L address) (epollSource L address) fuel) k

variable {L} {files : ω → Files} (kernel : Kernel L files)

/-- Its events, read at the poll. -/
def epollSelector : Selector (Epoll ω) n :=
  (epollSource L address).selector
    (fun _ events found => (kernel.reports _ _ _ events found).1.trans (Nat.min_le_left _ _))
    fun s => { s with world := (L.read s.signalFd 8 s.world).2 }

theorem epollSelector_same : (epollSelector (n := n) address kernel).Respects (Epoll.Same files) where
  poll s := ⟨_, rfl, kernel.wait s.eventFd (min (n + 1) (2 ^ 31 - 1)) s.world⟩
  drain s := ⟨_, rfl, kernel.read s.signalFd 8 s.world⟩

theorem epollSource_signal {s : Epoll ω} {ev : EpollEvent} (kill : s.isSignal ev = true) :
    (epollSource (n := n) L address).read s ev = some .signal := by
  unfold EventSource.read
  simp only [epollSource, Epoll.evSignal_signal L kill, if_true]

theorem epollSource_ready {s : Epoll ω} {ev : EpollEvent} {i : Fin n}
    (other : s.isSignal ev = false) (points : pointee address n (Epoll.getUserData ev) = some i) :
    (epollSource L address).read s ev = some (.ready i (Epoll.event ev)) := by
  unfold EventSource.read
  simp only [epollSource, Epoll.evSignal_other L other, points, Bool.false_eq_true, if_false,
    Option.map_some]

end Source

/-! One machine, to run it on. -/

/-- One connection has something to read, then a signal comes. -/
def daily : Machine := { ready := [some [(5, Epoll.EPOLLIN)], some [(4, Epoll.EPOLLIN)]] }

theorem plain_same (address : Nat → UInt64) :
    (Transport.plain (Epoll.backend linux address) 1).Respects (Epoll.Same Machine.files) :=
  Transport.plain_respects (fun fd len s => ⟨_, rfl, linux_kernel.read fd len s.world⟩)
    (fun fd bytes s => ⟨_, rfl, linux_kernel.write fd bytes s.world⟩) 1

/-- The run of two connections over notices, iteration by iteration. -/
def crewRun (m : Machine) (j : Nat) :=
  (run (Epoll.backend linux pages) (epollSelector pages linux_kernel).source 9 j).exec (crew 2 pages m)

/-! ## Every event has its reader -/

section Reading

variable {address : Nat → UInt64} {files : ω → Files} {σ e : Int} {t₀ : Table}

/-- Where the connections live: apart from each other, and at no address whose low half is read
as the eventfd, or as none. -/
structure Addressed (address : Nat → UInt64) (n : Nat) (σ : Int) : Prop where
  distinct : DistinctAddresses address n
  apart : ∀ i : Fin n, EpollEvent.fdOfData (address (i.val + 1)) ≠ σ
  proper : ∀ i : Fin n, EpollEvent.fdOfData (address (i.val + 1)) ≠ -1

/-- The address of a connection leads to it. -/
theorem Addressed.points (addressed : Addressed address n σ) {ev : EpollEvent} {i : Fin n}
    (data : ev.data = address (i.val + 1)) :
    pointee address n (Epoll.getUserData ev) = some i := by
  unfold Epoll.getUserData
  rw [data]
  exact pointee_address addressed.distinct i

theorem pages_addressed : Addressed pages 2 4 := by
  refine ⟨pages_distinct, ?_, ?_⟩ <;> decide +kernel

/-- The eventfd is readable. -/
def Kill (σ : Int) (ev : EpollEvent) : Prop :=
  ev.data = EpollEvent.dataOfFd σ ∧ ev.events &&& Epoll.EPOLLIN ≠ 0

/-- The table of an instance that has just been started. -/
structure Fresh (t₀ : Table) (e σ : Int) : Prop where
  reserved : t₀.reserved = [e, σ]
  signal : t₀.watch σ = Epoll.watch (Epoll.killEntry σ)
  silent : ∀ fd, fd ≠ σ → t₀.watch fd = Watch.none
  proper : 0 ≤ σ
  small : σ < 2 ^ 31

theorem init_fresh {L : Linux ω} (kernel : Kernel L files) {s s₀ : Epoll ω}
    (started : Epoll.init L s = (.ok (), s₀)) :
    Fresh (Epoll.table files s₀) s₀.eventFd s₀.signalFd := by
  obtain ⟨up, -, small, signal, silent, -⟩ := Epoll.init_starts kernel started
  refine ⟨rfl, ?_, fun fd other => ?_, (files s₀.world).proper _ ((files s₀.world).counted up.2), small⟩
  · simp only [Epoll.table, signal, Option.map_some, Option.getD_some]
  · simp only [Epoll.table, silent fd other, Option.map_none, Option.getD_none]

theorem Kill.fd (fresh : Fresh t₀ e σ) {ev : EpollEvent} (kill : Kill σ ev) : ev.fd = σ := by
  unfold EpollEvent.fd
  rw [kill.1, EpollEvent.fdOfData_dataOfFd fresh.proper fresh.small]

theorem Kill.isSignal (fresh : Fresh t₀ e σ) {ev : EpollEvent} (kill : Kill σ ev) {s : Epoll ω}
    (number : s.signalFd = σ) : s.isSignal ev = true :=
  decide_eq_true ⟨(kill.fd fresh).trans number.symm, kill.2⟩

/-- The instance and the eventfd are still the same. -/
theorem Fresh.signalFd (fresh : Fresh t₀ e σ) {r : Reactor T P}
    (mirrors : Mirrors address t₀ (Epoll.table files r.world) r.conns) : r.world.signalFd = σ := by
  have same : [r.world.eventFd, r.world.signalFd] = [e, σ] := mirrors.reserved.trans fresh.reserved
  exact (List.cons.inj (List.cons.inj same).2).1

/-- An event is the eventfd's, or has the address of a connection. -/
theorem reports_aimed (fresh : Fresh t₀ e σ) {r : Reactor T P}
    (mirrors : Mirrors address t₀ (Epoll.table files r.world) r.conns) {fd : Int} {ev : EpollEvent}
    (reports : Reports (files r.world.world) r.world.eventFd fd ev) :
    fd = σ ∧ Kill σ ev ∨
      fd ≠ σ ∧ ∃ i : Fin n, (r.conns i).fd = fd ∧ ev.data = address (i.val + 1) := by
  obtain ⟨entry, listed, data, readable⟩ := reports
  have watch : (Epoll.table files r.world).watch fd = Epoll.watch entry := by
    simp only [Epoll.table, listed, Option.map_some, Option.getD_some]
  have opened : fd ∈ (Epoll.table files r.world).opened :=
    (files r.world.world).listed r.world.eventFd fd (by rw [listed]; exact Option.some_ne_none entry)
  by_cases held : ∃ i, (r.conns i).fd = fd
  · -- it was registered by the connection that holds it
    obtain ⟨i, rfl⟩ := held
    have some' : (r.conns i).fd ≠ -1 := fun idle => (Epoll.table files r.world).idle_not_mem (idle ▸ opened)
    have own := ((mirrors.enrolled i).own some').error entry.data (by rw [watch]; rfl)
    have cookie := (mirrors.cookie i).resolve_left fun unattached => some' unattached.2
    have free := ((mirrors.enrolled i).held some').2
    rw [mirrors.reserved, fresh.reserved] at free
    refine .inr ⟨fun same => free (by simp [same]), i, rfl, ?_⟩
    rw [data, own, cookie]
  · -- it is as it was in the beginning
    have before : Epoll.watch entry = t₀.watch fd :=
      watch.symm.trans (mirrors.others fd fun i same => held ⟨i, same⟩).2
    by_cases here : fd = σ
    swap
    · rw [fresh.silent fd here] at before
      cases congrArg Watch.error before
    subst here
    rw [fresh.signal, Epoll.watch_killEntry] at before
    have same : entry.data = EpollEvent.dataOfFd fd := Option.some.inj (congrArg Watch.error before)
    refine .inl ⟨rfl, data.trans same, readable ?_ ?_ ?_⟩
    · rw [← fresh.signalFd mirrors]
      exact mirrors.up.2
    · intro none
      have read := congrArg Watch.read before
      rw [Epoll.watch, if_neg (not_not.mpr none)] at read
      cases read
    · by_contra some'
      have write := congrArg Watch.write before
      simp only [Epoll.watch, if_pos some'] at write
      cases write

/-- Every event was reported for one of the descriptors. -/
theorem forall₂_mem {α β : Type} {R : α → β → Prop} {fds : List α} {events : List β}
    (reports : List.Forall₂ R fds events) : ∀ ev ∈ events, ∃ fd ∈ fds, R fd ev := by
  induction reports with
  | nil => intro ev member; cases member
  | @cons fd first fds later report _ ih =>
      intro ev member
      rcases List.mem_cons.mp member with rfl | there
      · exact ⟨fd, List.mem_cons_self, report⟩
      · obtain ⟨fd', member', report'⟩ := ih ev there
        exact ⟨fd', List.mem_cons_of_mem fd member', report'⟩

/-- Events of different descriptors, no two of which have in common what only the events of one
descriptor have. -/
theorem forall₂_apart {α β : Type} {R : α → β → Prop} {p : β → β → Prop}
    (only : ∀ fd ev fd' ev', R fd ev → R fd' ev' → p ev ev' → fd = fd') {fds : List α}
    {events : List β} (reports : List.Forall₂ R fds events) (nodup : fds.Nodup) :
    events.Pairwise fun a b => ¬ p a b := by
  induction reports with
  | nil => exact .nil
  | @cons fd first fds later report others ih =>
      obtain ⟨absent, nodup'⟩ := List.nodup_cons.mp nodup
      refine .cons (fun ev member both => ?_) (ih nodup')
      obtain ⟨fd', member', report'⟩ := forall₂_mem others ev member
      exact absent (only fd first fd' ev report report' both ▸ member')

end Reading

/-! ## One batch -/

section Batch

variable {address : Nat → UInt64} {files : ω → Files} {L : Linux ω} {σ e : Int} {t₀ : Table}

/-- What an event is read as. -/
theorem read_aimed (fresh : Fresh t₀ e σ) (addressed : Addressed address n σ) {s : Epoll ω}
    (number : s.signalFd = σ) {ev : EpollEvent}
    (aimed : Kill σ ev ∨ ∃ i : Fin n, ev.data = address (i.val + 1)) :
    Kill σ ev ∧ (epollSource (n := n) L address).read s ev = some .signal ∨
      ¬ Kill σ ev ∧ ev.fd ≠ σ ∧ ev.fd ≠ -1 ∧ ∃ i : Fin n, ev.data = address (i.val + 1) ∧
        pointee address n (Epoll.getUserData ev) = some i ∧
          (epollSource L address).read s ev = some (.ready i (Epoll.event ev)) := by
  subst number
  by_cases kill : Kill s.signalFd ev
  · exact .inl ⟨kill, epollSource_signal address (kill.isSignal fresh rfl)⟩
  · obtain ⟨i, data⟩ := aimed.resolve_left kill
    have points := addressed.points data
    have other : ev.fd ≠ s.signalFd := by
      unfold EpollEvent.fd
      rw [data]
      exact addressed.apart i
    have some' : ev.fd ≠ -1 := by
      unfold EpollEvent.fd
      rw [data]
      exact addressed.proper i
    have unread : s.isSignal ev = false := decide_eq_false fun both => other both.1
    exact .inr ⟨kill, other, some', i, data, points, epollSource_ready address unread points⟩

/-- The events of a batch still to be served.  Either the instance is as it was started, or
`Net::stop` has been called because everything is done. -/
structure Dispatching (address : Nat → UInt64) (files : ω → Files) (t₀ : Table) (σ : Int)
    (events : List EpollEvent) (r : Reactor T P) : Prop where
  seated : Seated r
  mirrors : r.stops = 0 → Mirrors address t₀ (Epoll.table files r.world) r.conns
  ended : r.stops ≠ 0 → r.stopping = true ∧ r.allDone = true ∧ r.world.signalFd = -1
  aimed : ∀ ev ∈ events, Kill σ ev ∨ ∃ i : Fin n, ev.data = address (i.val + 1)
  single : events.Pairwise fun a b => ¬ (Kill σ a ∧ Kill σ b)
  calm : r.stopping = true → ∀ ev ∈ events, ¬ Kill σ ev

theorem stop_signalFd (L : Linux ω) (s : Epoll ω) : (Epoll.stop L s).signalFd = -1 := by
  unfold Epoll.stop
  by_cases idle : s.signalFd = -1
  · simp only [idle, ne_eq, not_true_eq_false, if_false]
    split <;> rfl
  · simp only [idle, ne_eq, not_false_eq_true, if_true]
    split <;> rfl

theorem stop_alive (L : Linux ω) (s : Epoll ω) : (Epoll.stop L s).alive = false := by
  unfold Epoll.stop
  dsimp only
  split <;> split <;> rfl

section Step

variable (kernel : Kernel L files) (fresh : Fresh t₀ e σ) (addressed : Addressed address n σ)
variable (transports : ∀ i, (T i).Respects (Epoll.Same files))
variable (protocols : ∀ i, (P i).Respects (Epoll.Same files)) (fuel : Nat)

include fresh addressed in
/-- **An event is served as what it is read as.** -/
theorem epollNotice_exec {s : Epoll ω} (number : s.signalFd = σ) {ev : EpollEvent}
    {rest : List EpollEvent} {r : Reactor T P}
    (dispatching : Dispatching address files t₀ σ (ev :: rest) r) :
    ∃ event, (epollSource L address).read s ev = some event ∧
      (notice (Epoll.backend L address) (epollSource L address) fuel ev).exec r =
        (notice (Epoll.backend L address) (epollSelector address kernel).source fuel event).exec r := by
  rcases read_aimed fresh addressed number (dispatching.aimed ev List.mem_cons_self) with
    ⟨kill, means⟩ | ⟨-, other, some', i, -, points, means⟩
  · have running : r.stops = 0 := by
      by_contra stopped
      exact dispatching.calm (dispatching.ended stopped).1 ev List.mem_cons_self kill
    have same := fresh.signalFd (dispatching.mirrors running)
    have signal := kill.isSignal fresh same
    refine ⟨.signal, means, ?_⟩
    unfold epollSelector
    apply EventSource.notice_signal
    simp only [epollSource, Epoll.evSignal_signal L signal]
  · have unread : ev.fd ≠ r.world.signalFd := by
      by_cases running : r.stops = 0
      · rw [fresh.signalFd (dispatching.mirrors running)]
        exact other
      · rw [(dispatching.ended running).2.2]
        exact some'
    have unsignalled : r.world.isSignal ev = false := decide_eq_false fun both => unread both.1
    refine ⟨_, means, ?_⟩
    unfold epollSelector
    apply EventSource.notice_ready
    · simp only [epollSource, Epoll.evSignal_other L unsignalled]
    · exact points

include kernel transports protocols in
/-- Before `Net::stop` a path of the reactor keeps the mirror. -/
theorem path_mirrors {r r' : Reactor T P}
    (path : ReflTransGen (Track (Epoll.backend L address) (epollSelector address kernel)) r r')
    (mirrors : r.stops = 0 → Mirrors address t₀ (Epoll.table files r.world) r.conns) :
    r'.stops = 0 → Mirrors address t₀ (Epoll.table files r'.world) r'.conns :=
  path_invariant (fun _ _ track inv => track.mirrors (Epoll.epoll_registers kernel address)
    (fun i => (transports i).mono fun _ _ => Epoll.Same.unmoved)
    (fun i => (protocols i).mono fun _ _ => Epoll.Same.unmoved)
    ((epollSelector_same address kernel).mono fun _ _ => Epoll.Same.unmoved) inv) path mirrors

include fresh addressed transports protocols in
theorem Dispatching.next {s : Epoll ω} (number : s.signalFd = σ) {ev : EpollEvent}
    {rest : List EpollEvent} {event : Notice n} {r r' : Reactor T P}
    (dispatching : Dispatching address files t₀ σ (ev :: rest) r)
    (means : (epollSource L address).read s ev = some event)
    (returned : (notice (Epoll.backend L address) (epollSelector address kernel).source fuel event).exec
      r = (some (), r')) :
    Dispatching address files t₀ σ rest r' := by
  have tracks := notice_tracks (N := Epoll.backend L address) (S := epollSelector address kernel) fuel
    event dispatching.seated
  unfold Runs at tracks
  rw [returned] at tracks
  obtain ⟨path, seated⟩ := tracks
  obtain ⟨_, r₁, served, tail⟩ := Prog.exec_bind_returns returned
  rw [Prog.exec_get_bind] at tail
  have stops : r₁.stops = r.stops := by
    have kept := serve_stops (N := Epoll.backend L address) (S := epollSelector address kernel) fuel
      event r
    rwa [served] at kept
  -- the signal comes at most once, and nothing else sets `stopping`
  have halted : r'.stopping = r₁.stopping := by
    split at tail <;> cases tail <;> rfl
  have aimed := read_aimed (L := L) fresh addressed number (dispatching.aimed ev List.mem_cons_self)
  have later : r'.stopping = true → ∀ ev' ∈ rest, ¬ Kill σ ev' := by
    intro stopping ev' member kill'
    by_cases before : r.stopping = true
    · exact dispatching.calm before ev' (List.mem_cons_of_mem ev member) kill'
    rcases aimed with ⟨kill, -⟩ | ⟨-, -, -, i, -, -, means'⟩
    · exact (List.pairwise_cons.mp dispatching.single).1 ev' member ⟨kill, kill'⟩
    · cases Option.some.inj (means.symm.trans means')
      have kept := ready_stopping (N := Epoll.backend L address)
        (S := epollSelector address kernel) fuel i (Epoll.event ev) r
      rw [served] at kept
      exact before (kept ▸ halted ▸ stopping)
  refine ⟨seated () rfl, path_mirrors kernel transports protocols path dispatching.mirrors, ?_,
    fun ev' member => dispatching.aimed ev' (List.mem_cons_of_mem ev member),
    (List.pairwise_cons.mp dispatching.single).2, later⟩
  intro stopped
  split at tail
  next ended =>
    cases tail
    exact ⟨ended.1, ended.2, stop_signalFd L r₁.world⟩
  next unended =>
    -- the batch has gone on after the end: its connection is done, and the end is noticed again
    cases tail
    obtain ⟨stopping, done, -⟩ := dispatching.ended (stops ▸ stopped)
    rcases aimed with ⟨kill, -⟩ | ⟨-, -, -, i, -, -, means'⟩
    · exact absurd kill (dispatching.calm stopping ev List.mem_cons_self)
    · cases Option.some.inj (means.symm.trans means')
      rw [serve_done fuel ((Reactor.allDone_iff r).mp done i)] at served
      cases served
      exact absurd ⟨stopping, done⟩ unended

/-! ## The loop -/

/-- A reactor between two iterations. -/
structure Looping (address : Nat → UInt64) (files : ω → Files) (t₀ : Table) (r : Reactor T P) :
    Prop where
  seated : Seated r
  mirrors : r.stops = 0 → Mirrors address t₀ (Epoll.table files r.world) r.conns
  dead : r.stops ≠ 0 → r.world.alive = false
  single : r.Singly

omit kernel fresh addressed transports protocols fuel in
theorem Looping.running {r : Reactor T P} (looping : Looping address files t₀ r)
    (alive : r.world.alive = true) : r.stops = 0 := by
  by_contra stopped
  rw [looping.dead stopped] at alive
  cases alive

omit fuel in
include transports protocols in
theorem path_dead {r r' : Reactor T P}
    (path : ReflTransGen (Track (Epoll.backend L address) (epollSelector address kernel)) r r')
    (dead : r.stops ≠ 0 → r.world.alive = false) : r'.stops ≠ 0 → r'.world.alive = false := by
  refine path_invariant (fun (r r' : Reactor T P) track (inv : r.stops ≠ 0 → r.world.alive = false)
    (stopped : r'.stops ≠ 0) => ?_) path dead
  rcases track.respects (Epoll.backend_static L address)
    (fun i => (transports i).mono fun _ _ => Epoll.Same.static)
    (fun i => (protocols i).mono fun _ _ => Epoll.Same.static)
    ((epollSelector_same address kernel).mono fun _ _ => Epoll.Same.static) with static | rfl
  · rcases track.stops_eq with same | rfl
    · rw [static.alive]
      exact inv (same ▸ stopped)
    · exact stop_alive L r.world
  · exact stop_alive L r.world

include fresh addressed transports protocols in
/-- **One iteration of the two loops.** -/
theorem epollLoop_exec {r : Reactor T P} (looping : Looping address files t₀ r)
    (alive : r.world.alive = true)
    (calm : r.stopping = true → ∀ batch, ((epollSelector (n := n) address kernel).poll r.world).1 =
      some batch → Notice.signal ∉ batch) :
    (loop (Epoll.backend L address) (epollSource L address) fuel).exec r =
      (loop (Epoll.backend L address) (epollSelector address kernel).source fuel).exec r := by
  have running := looping.running alive
  have mirrors := looping.mirrors running
  have number : (Epoll.poll L (n + 1) r.world).2.signalFd = σ := fresh.signalFd mirrors
  refine EventSource.loop_reads (Dispatching address files t₀ σ) (fun events found => ?_) ?_
  · obtain ⟨-, fds, nodup, reports⟩ := kernel.reports _ _ r.world.world events found
    have polled := path_mirrors kernel transports protocols (.single (.poll r)) looping.mirrors
    have aimed : ∀ ev ∈ events, Kill σ ev ∨ ∃ i : Fin n, ev.data = address (i.val + 1) := by
      intro ev member
      obtain ⟨fd, -, report⟩ := forall₂_mem reports ev member
      rcases reports_aimed fresh mirrors report with ⟨-, kill⟩ | ⟨-, i, -, data⟩
      · exact .inl kill
      · exact .inr ⟨i, data⟩
    have alone : ∀ fd ev, Reports (files r.world.world) r.world.eventFd fd ev → Kill σ ev →
        fd = σ := by
      intro fd ev report kill
      rcases reports_aimed fresh mirrors report with ⟨here, -⟩ | ⟨-, i, -, data⟩
      · exact here
      · refine absurd ?_ (addressed.apart i)
        rw [← data]
        exact kill.fd fresh
    have single : events.Pairwise fun a b => ¬ (Kill σ a ∧ Kill σ b) :=
      forall₂_apart (fun fd ev fd' ev' report report' both =>
        (alone fd ev report both.1).trans (alone fd' ev' report' both.2).symm) reports nodup
    refine ⟨looping.seated, polled, fun stopped => absurd running stopped, aimed, single, ?_⟩
    intro stopping ev member kill
    refine calm stopping _ (congrArg (Option.map _) found) (List.mem_filterMap.mpr ⟨ev, member, ?_⟩)
    exact epollSource_signal address (kill.isSignal fresh number)
  · intro ev rest r' dispatching
    obtain ⟨event, means, same⟩ :=
      epollNotice_exec kernel fresh addressed fuel number dispatching
    exact ⟨event, means, same, fun r'' returned => dispatching.next kernel fresh addressed transports
      protocols fuel number means returned⟩

include kernel fresh addressed in
/-- No batch has two events of one connection. -/
theorem epoll_targets_nodup {r : Reactor T P} (looping : Looping address files t₀ r)
    (alive : r.world.alive = true) {events : List EpollEvent}
    (found : (Epoll.poll L (n + 1) r.world).1 = some events) :
    ((epollSource (n := n) L address).targets (Epoll.poll L (n + 1) r.world).2 events).Nodup := by
  have mirrors := looping.mirrors (looping.running alive)
  have number : (Epoll.poll L (n + 1) r.world).2.signalFd = σ := fresh.signalFd mirrors
  obtain ⟨-, fds, nodup, reports⟩ := kernel.reports _ _ r.world.world events found
  -- whom an event is for holds the descriptor it was reported for
  have holds : ∀ {fd ev} {i : Fin n}, Reports (files r.world.world) r.world.eventFd fd ev →
      (epollSource L address).target (Epoll.poll L (n + 1) r.world).2 ev = some i →
      (r.conns i).fd = fd := by
    intro fd ev i report target
    unfold EventSource.target at target
    rcases reports_aimed fresh mirrors report with ⟨-, kill⟩ | ⟨-, j, held, data⟩
    · have signal := kill.isSignal fresh number
      simp only [epollSource, Epoll.evSignal_signal L signal, if_true] at target
      cases target
    · split at target
      · cases target
      · obtain rfl : j = i := Option.some.inj ((addressed.points data).symm.trans target)
        exact held
  have apart : events.Pairwise fun a b => ¬ ∃ i : Fin n,
      (epollSource L address).target (Epoll.poll L (n + 1) r.world).2 a = some i ∧
        (epollSource L address).target (Epoll.poll L (n + 1) r.world).2 b = some i := by
    refine forall₂_apart ?_ reports nodup
    rintro fd ev fd' ev' report report' ⟨i, here, there⟩
    exact (holds report here).symm.trans (holds report' there)
  apply List.pairwise_filterMap.mpr
  refine apart.imp ?_
  rintro ev ev' apart i here j there rfl
  exact apart ⟨i, here, there⟩

include fresh addressed in
theorem Looping.singly {r : Reactor T P} (looping : Looping address files t₀ r)
    (alive : r.world.alive = true) :
    ((loop (Epoll.backend L address) (epollSelector address kernel).source fuel).exec r).2.Singly := by
  intro about member
  rw [loop_batches, List.mem_append, Option.mem_toList] at member
  rcases member with now | before
  · obtain ⟨batch, found, rfl⟩ := Option.map_eq_some_iff.mp now
    obtain ⟨events, polled, rfl⟩ := Option.map_eq_some_iff.mp found
    rw [source_targets, EventSource.targets_read]
    exact epoll_targets_nodup kernel fresh addressed looping alive polled
  · exact looping.single about before

include fresh addressed transports protocols in
theorem Looping.next {r r' : Reactor T P} (looping : Looping address files t₀ r)
    (alive : r.world.alive = true)
    (returned : (loop (Epoll.backend L address) (epollSelector address kernel).source fuel).exec r =
      (some (), r')) : Looping address files t₀ r' := by
  have tracks := loop_tracks (N := Epoll.backend L address) (S := epollSelector address kernel) fuel
    looping.seated
  have single := looping.singly kernel fresh addressed fuel alive
  unfold Runs at tracks
  rw [returned] at tracks single
  obtain ⟨path, seated⟩ := tracks
  exact ⟨seated () rfl, path_mirrors kernel transports protocols path looping.mirrors,
    path_dead kernel transports protocols path looping.dead, single⟩

end Step

/-! ## The whole run -/

section Whole

variable (kernel : Kernel L files) {s s₀ : Epoll ω} (started : Epoll.init L s = (.ok (), s₀))
variable (addressed : Addressed address n s₀.signalFd)
variable (transports : ∀ i, (T i).Respects (Epoll.Same files))
variable (protocols : ∀ i, (P i).Respects (Epoll.Same files)) (fuel k : Nat)
variable (configs : ∀ i, ConnectionConfig (T i) (P i))

variable (calm : ∀ j < k, ∀ r, (run (Epoll.backend L address) (epollSelector address kernel).source fuel j).exec
    (Reactor.make configs s₀) = (some (), r) → r.stopping = true →
  ∀ batch, ((epollSelector (n := n) address kernel).poll r.world).1 = some batch →
    Notice.signal ∉ batch)

variable (address) in
/-- The turns so far are a run over notices, and `left` of the `k` are to come. -/
structure Turning (s₀ : Epoll ω) (left : Nat) (r : Reactor T P) : Prop where
  looping : Looping address files (Epoll.table files s₀) r
  reached : ∃ j, j + left = k ∧
    (run (Epoll.backend L address) (epollSelector address kernel).source fuel j).exec
      (Reactor.make configs s₀) = (some (), r)

include started transports protocols in
theorem init_turning {u : Unit} {r : Reactor T P}
    (attached : (initAll (Epoll.backend L address) fuel).exec (Reactor.make configs s₀) = (some u, r)) :
    Turning address kernel fuel k configs s₀ k r := by
  have up := (Epoll.init_starts kernel started).1
  have tracks := initAll_tracks (N := Epoll.backend L address) (S := epollSelector address kernel) fuel
    configs s₀
  have single := initAll_singly (N := Epoll.backend L address) fuel configs s₀
  unfold Runs at tracks
  rw [attached] at tracks single
  obtain ⟨path, seated⟩ := tracks
  refine ⟨⟨seated u rfl,
    path_mirrors kernel transports protocols path fun _ => make_mirrors configs s₀ up,
    path_dead kernel transports protocols path fun stopped => absurd rfl stopped, single⟩,
    0, Nat.zero_add k, ?_⟩
  unfold run
  rw [Prog.exec_bind_some attached]
  rfl

include started addressed transports protocols calm in
/-- One turn of the two loops. -/
theorem Turning.turn {left : Nat} {r : Reactor T P}
    (turning : Turning address kernel fuel k configs s₀ (left + 1) r)
    (alive : r.world.alive = true) :
    (loop (Epoll.backend L address) (epollSource L address) fuel).exec r =
        (loop (Epoll.backend L address) (epollSelector address kernel).source fuel).exec r ∧
      ∀ r', (loop (Epoll.backend L address) (epollSelector address kernel).source fuel).exec r =
        (some (), r') → Turning address kernel fuel k configs s₀ left r' := by
  have fresh := init_fresh kernel started
  obtain ⟨looping, j, total, reached⟩ := turning
  refine ⟨epollLoop_exec kernel fresh addressed transports protocols fuel looping alive
    (calm j (by omega) r reached), fun r' returned => ?_⟩
  refine ⟨looping.next kernel fresh addressed transports protocols fuel alive returned,
    j + 1, by omega, ?_⟩
  rw [run_continues fuel reached 1]
  exact Prog.exec_bind_some returned

include started addressed transports protocols calm in
/-- The two runs. -/
theorem epollRun_exec :
    ∃ j ≤ k, (epollRun L address fuel k).exec (Reactor.make configs s₀) =
        (run (Epoll.backend L address) (epollSelector address kernel).source fuel j).exec
          (Reactor.make configs s₀) ∧
      (j = k ∨ ((epollRun L address fuel k).exec (Reactor.make configs s₀)).2.world.alive = false) := by
  rcases attached : (initAll (Epoll.backend L address) fuel).exec (Reactor.make configs s₀) with ⟨_ | u, r₁⟩
  · refine ⟨k, Nat.le_refl k, ?_, .inl rfl⟩
    unfold epollRun run
    rw [Prog.exec_bind_none attached, Prog.exec_bind_none attached]
  have start := init_turning kernel started transports protocols fuel k configs attached
  unfold epollRun run
  rw [Prog.exec_bind_some attached]
  simp only [Prog.exec_bind_some attached]
  exact Prog.exec_loopWhile_congr (Turning address kernel fuel k configs s₀)
    (fun _ _ turning alive =>
      turning.turn kernel started addressed transports protocols fuel k configs calm alive) k r₁ start

include started addressed transports protocols calm in
/-- No batch of the run has two events of one connection. -/
theorem epollRun_singly : ((epollRun L address fuel k).exec (Reactor.make configs s₀)).2.Singly := by
  have fresh := init_fresh kernel started
  unfold epollRun
  rcases attached : (initAll (Epoll.backend L address) fuel).exec (Reactor.make configs s₀) with ⟨_ | u, r₁⟩
  · have single := initAll_singly (N := Epoll.backend L address) fuel configs s₀
    rw [attached] at single
    rw [Prog.exec_bind_none attached]
    exact single
  rw [Prog.exec_bind_some attached]
  refine Prog.exec_loopWhile_leaves (Turning address kernel fuel k configs s₀)
    (fun _ _ turning => turning.looping.single) (fun left r turning alive => ?_) k r₁
    (init_turning kernel started transports protocols fuel k configs attached)
  obtain ⟨same, next⟩ :=
    turning.turn kernel started addressed transports protocols fuel k configs calm alive
  rw [same]
  exact ⟨turning.looping.singly kernel fresh addressed fuel alive, next⟩

/-- The first connection is at its end, and comes back on another descriptor. -/
def returning : Machine where
  script := { reads := [.ok []] }
  ready := [some [(5, Epoll.EPOLLIN), (6, Epoll.EPOLLIN)], some [(7, Epoll.EPOLLIN), (6, Epoll.EPOLLIN)]]

end Whole

end Batch

/-! What the two conditions are for. -/

/-- The low half of the address is the number of the eventfd. -/
def colliding (cookie : Nat) : UInt64 := UInt64.ofNat (2 ^ 32 * cookie + 4)

/-- Something to read is taken for a signal, and everything is stopped. -/
theorem address_mistaken :
    let ran := (epollRun linux colliding 9 1).exec
      (crew 1 colliding { ready := [some [(5, Epoll.EPOLLIN)]] })
    ran.1 = some () ∧ ran.2.stopping = true ∧ (ran.2.conns 0).state = .closed := by
  decide +kernel

/-- The connection cannot write its last byte at once; when it can, a second signal has come. -/
def hasty : Machine where
  script := { writes := [.error .eagain] }
  ready := [some [(4, Epoll.EPOLLIN)], some [(5, Epoll.EPOLLOUT), (4, Epoll.EPOLLIN)]]

/-- The second signal is followed as an address, where no connection lives. -/
theorem second_signal_followed :
    let ran := (epollRun linux pages 9 1).exec (crew 1 pages hasty)
    let ran' := (epollRun linux pages 9 2).exec (crew 1 pages hasty)
    ran.1 = some () ∧ ran.2.stopping = true ∧ (ran.2.conns 0).state = .drainProtocol ∧
      ran'.1 = none ∧ (ran'.2.conns 0).state = .closed := by
  decide +kernel

end Manet.Reactor
