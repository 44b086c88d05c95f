/-
# Manet.Net.Epoll — the backend on epoll

`Epoll` (`net/epoll.hpp`, `net/epoll.cc`) over the system calls of Linux, which are functions of
a world as a backend's are.  Its static members are part of the state, so a backend on epoll
acts on `Epoll ω`.  The user data of an event is a union of eight bytes: a pointer for a
connection, the descriptor itself for the signal.

What epoll does is `Files`, from its manual pages: the open descriptors, and for each epoll
instance which of them it lists and how.  `Kernel L files` says that the calls of `L` do that;
additions are not refused for want of memory.  Then the backend keeps a table
(`epoll_registers`): `subscribe` tries to change an entry and adds it if there was none, which
leaves the same entry in both cases (`subscribe_lists`).
-/
import Mathlib.Algebra.Group.Int.Defs
import Mathlib.Algebra.Group.Nat.Defs
import Manet.Net.Registry
import Manet.Net.Script

namespace Manet.Net

set_option autoImplicit false

/-- `struct epoll_event`; the union is its eight bytes. -/
@[ext] structure EpollEvent where
  events : UInt32
  data : UInt64
  deriving DecidableEq, Repr

namespace EpollEvent

/-- The first four bytes of the union, as an `int`. -/
def fdOfData (data : UInt64) : Int := (data.toNat : Int).bmod (2 ^ 32)

/-- `data.fd` -/
def fd (ev : EpollEvent) : Int := fdOfData ev.data

/-- What assigning `data.fd` leaves of a zeroed union. -/
def dataOfFd (fd : Int) : UInt64 := UInt64.ofNat (fd % 2 ^ 32).toNat

theorem fdOfData_dataOfFd {fd : Int} (proper : 0 ≤ fd) (small : fd < 2 ^ 31) :
    fdOfData (dataOfFd fd) = fd := by
  have number : ((dataOfFd fd).toNat : Int) = fd := by
    simp only [dataOfFd, UInt64.toNat_ofNat']
    omega
  unfold fdOfData
  rw [number]
  apply Int.bmod_eq_of_le_mul_two <;> omega

end EpollEvent

/-- `EPOLL_CTL_*` -/
inductive Ctl where
  | add
  | mod
  | del
  deriving DecidableEq, Repr

structure Linux (ω : Type) where
  getaddrinfo : String → UInt16 → ω → Option (List AddrInfo) × ω
  /-- With or without `SOCK_NONBLOCK`. -/
  socket : AddrInfo → Bool → ω → Ret × ω
  ioctl : Int → ω → Ret × ω
  connect : Int → AddrInfo → ω → Ret × ω
  close : Int → ω → ω
  getsockopt : Int → ω → (Int × Int) × ω
  read : Int → Nat → ω → Except Errno (List UInt8) × ω
  write : Int → List UInt8 → ω → Except Errno Nat × ω
  epollCreate1 : ω → Ret × ω
  eventfd : ω → Ret × ω
  /-- The event may be `nullptr`. -/
  epollCtl : Int → Ctl → Int → Option EpollEvent → ω → Ret × ω
  /-- `none`: the number of events is negative. -/
  epollWait : Int → Nat → ω → Option (List EpollEvent) × ω

/-- The static members of `Epoll`, and the world. -/
structure Epoll (ω : Type) where
  eventFd : Int := -1
  signalFd : Int := -1
  alive : Bool := false
  world : ω

namespace Epoll

def EPOLLIN : UInt32 := 0x001
def EPOLLOUT : UInt32 := 0x004
def EPOLLERR : UInt32 := 0x008
def EPOLLHUP : UInt32 := 0x010
def EPOLLRDHUP : UInt32 := 0x2000
def EPOLLET : UInt32 := 0x80000000

variable {ω : Type} (L : Linux ω)

/-- `epoll_ctl` on this instance. -/
def ctl (op : Ctl) (fd : Int) (ev : Option EpollEvent) (s : Epoll ω) : Ret × Epoll ω :=
  let (ret, w) := L.epollCtl s.eventFd op fd ev s.world
  (ret, { s with world := w })

/-- The `ee` of `subscribe`. -/
def entry (data : UInt64) (wantRead wantWrite : Bool) : EpollEvent :=
  let events := EPOLLERR ||| EPOLLHUP ||| EPOLLET
  let events := if wantRead then events ||| EPOLLIN else events
  let events := if wantWrite then events ||| EPOLLOUT else events
  { events, data }

/-- `ptr` is the address behind a cookie. -/
def subscribe (ptr : UInt64) (fd : Int) (wantRead wantWrite : Bool) (s : Epoll ω) : Epoll ω :=
  let ee := entry ptr wantRead wantWrite
  let (ret, s) := ctl L .mod fd (some ee) s
  if ret.value ≠ 0 then
    -- not registered yet
    if ret.errno = .enoent then (ctl L .add fd (some ee) s).2
    else if ret.errno = .eexist then (ctl L .mod fd (some ee) s).2
    -- `EBADF` is ignored, anything else only printed
    else s
  else s

def clear (fd : Int) (s : Epoll ω) : Epoll ω := (ctl L .del fd none s).2

/-- The text of the exception it throws, if it does. -/
def init (s : Epoll ω) : Except String Unit × Epoll ω :=
  let (made, w) := L.epollCreate1 s.world
  let s := { s with eventFd := made.value, world := w }
  if s.eventFd < 0 then (.error "failed to create epoll fd", s)
  else
    let (made, w) := L.eventfd s.world
    let s := { s with signalFd := made.value, world := w }
    if s.signalFd < 0 then (.error "failed to create kill eventfd", s)
    else
      let ev : EpollEvent := { events := EPOLLIN, data := EpollEvent.dataOfFd s.signalFd }
      let (ret, s) := ctl L .add s.signalFd (some ev) s
      if ret.value < 0 then (.error "failed to subscribe to killfd", s)
      else (.ok (), { s with alive := true })

/-- One, in the eight bytes an `eventfd` takes. -/
def one : List UInt8 := [1, 0, 0, 0, 0, 0, 0, 0]

def signal (s : Epoll ω) : Epoll ω :=
  if s.signalFd ≠ -1 then { s with world := (L.write s.signalFd one s.world).2 } else s

def stop (s : Epoll ω) : Epoll ω :=
  let s := { s with alive := false }
  let s := if s.signalFd ≠ -1 then { s with world := L.close s.signalFd s.world, signalFd := -1 } else s
  if s.eventFd ≠ -1 then { s with world := L.close s.eventFd s.world, eventFd := -1 } else s

/-- The length is clamped to what an `int` holds. -/
def poll (len : Nat) (s : Epoll ω) : Option (List EpollEvent) × Epoll ω :=
  let (events, w) := L.epollWait s.eventFd (min len (2 ^ 31 - 1)) s.world
  (events, { s with world := w })

/-- The condition of `ev_signal`. -/
def isSignal (s : Epoll ω) (ev : EpollEvent) : Bool :=
  ev.fd = s.signalFd ∧ ev.events &&& EPOLLIN ≠ 0

/-- The eventfd is read from, to drain it. -/
def evSignal (ev : EpollEvent) (s : Epoll ω) : Bool × Epoll ω :=
  if s.isSignal ev then (true, { s with world := (L.read s.signalFd 8 s.world).2 }) else (false, s)

def evClose (ev : EpollEvent) : Bool := ev.events &&& (EPOLLHUP ||| EPOLLRDHUP) ≠ 0

def evError (ev : EpollEvent) : Bool := ev.events &&& EPOLLERR ≠ 0

def evReadable (ev : EpollEvent) : Bool := ev.events &&& EPOLLIN ≠ 0

def evWriteable (ev : EpollEvent) : Bool := ev.events &&& EPOLLOUT ≠ 0

def getUserData (ev : EpollEvent) : UInt64 := ev.data

/-- What a connection can ask of an event. -/
def event (ev : EpollEvent) : Event where
  close := evClose ev
  error := evError ev
  readable := evReadable ev
  writeable := evWriteable ev

variable (address : Nat → UInt64)

def backend : Backend (Epoll ω) where
  getaddrinfo host port s :=
    let (addrs, w) := L.getaddrinfo host port s.world
    (addrs, { s with world := w })
  socket ai s :=
    let (ret, w) := L.socket ai true s.world
    (ret, { s with world := w })
  ioctl fd s :=
    let (ret, w) := L.ioctl fd s.world
    (ret, { s with world := w })
  connect fd ai s :=
    let (ret, w) := L.connect fd ai s.world
    (ret, { s with world := w })
  close fd s := { s with world := L.close fd s.world }
  getsockopt fd s :=
    let (ret, w) := L.getsockopt fd s.world
    (ret, { s with world := w })
  subscribe k fd wantRead wantWrite s := subscribe L (address k) fd wantRead wantWrite s
  clear fd s := clear L fd s
  read fd len s :=
    let (answer, w) := L.read fd len s.world
    (answer, { s with world := w })
  write fd bytes s :=
    let (answer, w) := L.write fd bytes s.world
    (answer, { s with world := w })

end Epoll

/-! ## What epoll does -/

/-- The descriptors of a process: the open ones, the epoll instances and eventfds among them, and
what each instance lists for which descriptor. -/
@[ext] structure Files where
  opened : Set Int
  epolls : Set Int
  counters : Set Int
  list : Int → Int → Option EpollEvent
  proper : ∀ fd ∈ opened, 0 ≤ fd
  within : epolls ⊆ opened
  counted : counters ⊆ opened
  listed : ∀ ep fd, list ep fd ≠ none → fd ∈ opened

namespace Files

variable (t : Files) (fd : Int)

def opening (proper : 0 ≤ fd) : Files where
  opened := insert fd t.opened
  epolls := t.epolls
  counters := t.counters
  list := t.list
  proper := by
    rintro d (rfl | member)
    · exact proper
    · exact t.proper d member
  within := t.within.trans (Set.subset_insert fd t.opened)
  counted := t.counted.trans (Set.subset_insert fd t.opened)
  listed ep d some' := Set.mem_insert_of_mem fd (t.listed ep d some')

/-- A new eventfd. -/
def counting (proper : 0 ≤ fd) : Files where
  opened := insert fd t.opened
  epolls := t.epolls
  counters := insert fd t.counters
  list := t.list
  proper := (t.opening fd proper).proper
  within := (t.opening fd proper).within
  counted := Set.insert_subset_insert t.counted
  listed := (t.opening fd proper).listed

/-- A new epoll instance lists nothing. -/
def creating (proper : 0 ≤ fd) : Files where
  opened := insert fd t.opened
  epolls := insert fd t.epolls
  counters := t.counters
  list := Function.update t.list fd fun _ => none
  proper := (t.opening fd proper).proper
  within := Set.insert_subset_insert t.within
  counted := (t.opening fd proper).counted
  listed ep d some' := by
    by_cases same : ep = fd
    · rw [same, Function.update_self] at some'
      exact absurd rfl some'
    · rw [Function.update_of_ne same] at some'
      exact Set.mem_insert_of_mem fd (t.listed ep d some')

/-- Closing a descriptor takes it out of every list. -/
def closing : Files where
  opened := t.opened \ {fd}
  epolls := t.epolls \ {fd}
  counters := t.counters \ {fd}
  list ep d := if ep = fd ∨ d = fd then none else t.list ep d
  proper d member := t.proper d member.1
  within d member := ⟨t.within member.1, member.2⟩
  counted d member := ⟨t.counted member.1, member.2⟩
  listed ep d some' := by
    by_cases touched : ep = fd ∨ d = fd
    · rw [if_pos touched] at some'
      exact absurd rfl some'
    · rw [if_neg touched] at some'
      exact ⟨t.listed ep d some', fun same => touched (.inr same)⟩

/-- An entry of one list is set. -/
def listing (ep : Int) (ev : EpollEvent) (member : fd ∈ t.opened) : Files where
  opened := t.opened
  epolls := t.epolls
  counters := t.counters
  list := Function.update t.list ep (Function.update (t.list ep) fd (some ev))
  proper := t.proper
  within := t.within
  counted := t.counted
  listed ep' d some' := by
    by_cases same : ep' = ep
    · subst same
      rw [Function.update_self] at some'
      by_cases here : d = fd
      · exact here ▸ member
      · rw [Function.update_of_ne here] at some'
        exact t.listed ep' d some'
    · rw [Function.update_of_ne same] at some'
      exact t.listed ep' d some'

def dropping (ep : Int) : Files where
  opened := t.opened
  epolls := t.epolls
  counters := t.counters
  list := Function.update t.list ep (Function.update (t.list ep) fd none)
  proper := t.proper
  within := t.within
  counted := t.counted
  listed ep' d some' := by
    by_cases same : ep' = ep
    · subst same
      rw [Function.update_self] at some'
      by_cases here : d = fd
      · rw [here, Function.update_self] at some'
        exact absurd rfl some'
      · rw [Function.update_of_ne here] at some'
        exact t.listed ep' d some'
    · rw [Function.update_of_ne same] at some'
      exact t.listed ep' d some'

end Files

/-- An event that an instance reports for a descriptor it lists, with its user data.  Any event
may come, errors and hang-ups unasked; but an eventfd that is watched for reading only is readable
whenever it is reported. -/
def Reports (t : Files) (ep fd : Int) (ev : EpollEvent) : Prop :=
  ∃ entry, t.list ep fd = some entry ∧ ev.data = entry.data ∧
    (fd ∈ t.counters → entry.events &&& Epoll.EPOLLIN ≠ 0 → entry.events &&& Epoll.EPOLLOUT = 0 →
      ev.events &&& Epoll.EPOLLIN ≠ 0)

section Kernel

variable {ω : Type} (L : Linux ω) (files : ω → Files)

/-- The system calls of `L` do to the descriptors what their manual pages say. -/
structure Kernel : Prop where
  getaddrinfo : ∀ host port w, files (L.getaddrinfo host port w).2 = files w
  refused : ∀ ai flag w, (L.socket ai flag w).1.value < 0 → files (L.socket ai flag w).2 = files w
  socket : ∀ ai flag w, ∀ proper : 0 ≤ (L.socket ai flag w).1.value,
    (L.socket ai flag w).1.value ∉ (files w).opened ∧
      files (L.socket ai flag w).2 = (files w).opening (L.socket ai flag w).1.value proper
  ioctl : ∀ fd w, files (L.ioctl fd w).2 = files w
  connect : ∀ fd ai w, files (L.connect fd ai w).2 = files w
  getsockopt : ∀ fd w, files (L.getsockopt fd w).2 = files w
  read : ∀ fd len w, files (L.read fd len w).2 = files w
  write : ∀ fd bytes w, files (L.write fd bytes w).2 = files w
  close : ∀ fd w, files (L.close fd w) = (files w).closing fd
  create : ∀ w, ∀ proper : 0 ≤ (L.epollCreate1 w).1.value,
    (L.epollCreate1 w).1.value ∉ (files w).opened ∧
      files (L.epollCreate1 w).2 = (files w).creating (L.epollCreate1 w).1.value proper
  /-- The number is an `int`. -/
  eventfd : ∀ w, ∀ proper : 0 ≤ (L.eventfd w).1.value,
    (L.eventfd w).1.value < 2 ^ 31 ∧ (L.eventfd w).1.value ∉ (files w).opened ∧
      files (L.eventfd w).2 = (files w).counting (L.eventfd w).1.value proper
  /-- `EBADF` -/
  bad : ∀ ep op fd ev w, ep ∉ (files w).epolls ∨ fd ∉ (files w).opened →
    files (L.epollCtl ep op fd ev w).2 = files w
  mod : ∀ ep fd ev w, ep ∈ (files w).epolls → ∀ member : fd ∈ (files w).opened,
    (files w).list ep fd ≠ none →
      (L.epollCtl ep .mod fd (some ev) w).1.value = 0 ∧
        files (L.epollCtl ep .mod fd (some ev) w).2 = (files w).listing fd ep ev member
  /-- `ENOENT` -/
  unlisted : ∀ ep fd ev w, ep ∈ (files w).epolls → fd ∈ (files w).opened →
    (files w).list ep fd = none →
      (L.epollCtl ep .mod fd ev w).1 = ⟨-1, .enoent⟩ ∧
        files (L.epollCtl ep .mod fd ev w).2 = files w
  add : ∀ ep fd ev w, ep ∈ (files w).epolls → ∀ member : fd ∈ (files w).opened,
    (files w).list ep fd = none →
      (L.epollCtl ep .add fd (some ev) w).1.value = 0 ∧
        files (L.epollCtl ep .add fd (some ev) w).2 = (files w).listing fd ep ev member
  /-- Deleting what is not listed changes nothing. -/
  del : ∀ ep fd ev w, ep ∈ (files w).epolls → fd ∈ (files w).opened →
    files (L.epollCtl ep .del fd ev w).2 = (files w).dropping fd ep
  wait : ∀ ep len w, files (L.epollWait ep len w).2 = files w
  /-- At most `len` events, of different descriptors, and each for an entry of the list. -/
  reports : ∀ ep len w events, (L.epollWait ep len w).1 = some events → events.length ≤ len ∧
    ∃ fds : List Int, fds.Nodup ∧ List.Forall₂ (Reports (files w) ep) fds events

end Kernel

/-! ## The backend keeps a table -/

namespace Epoll

/-- How an entry watches its descriptor. -/
def watch (entry : EpollEvent) : Watch where
  read := if entry.events &&& EPOLLIN ≠ 0 then some entry.data else none
  write := if entry.events &&& EPOLLOUT ≠ 0 then some entry.data else none
  error := some entry.data

/-- The mask says what was asked for. -/
theorem entry_mask : ∀ r w : Bool,
    ((entry 0 r w).events &&& EPOLLIN ≠ 0 ↔ r = true) ∧
      ((entry 0 r w).events &&& EPOLLOUT ≠ 0 ↔ w = true) := by
  decide

theorem entry_hears (data : UInt64) (r w : Bool) : (watch (entry data r w)).Hears data r w := by
  obtain ⟨reads, writes⟩ := entry_mask r w
  have events : (entry data r w).events = (entry 0 r w).events := rfl
  constructor
  · simp only [watch, events, reads]
    rfl
  · simp only [watch, events, writes]
    rfl

theorem watch_only (ev : EpollEvent) : (watch ev).Only ev.data := by
  refine ⟨fun d report => ?_, fun d report => ?_, fun d report => ?_⟩
  · simp only [watch] at report
    split at report <;> cases report
    rfl
  · simp only [watch] at report
    split at report <;> cases report
    rfl
  · cases report
    rfl

/-- The entry of the eventfd. -/
def killEntry (signalFd : Int) : EpollEvent :=
  { events := EPOLLIN, data := EpollEvent.dataOfFd signalFd }

theorem watch_killEntry (signalFd : Int) : watch (killEntry signalFd) =
    ⟨some (EpollEvent.dataOfFd signalFd), none, some (EpollEvent.dataOfFd signalFd)⟩ := by
  have readable : (killEntry signalFd).events &&& EPOLLIN ≠ 0 :=
    show EPOLLIN &&& EPOLLIN ≠ 0 by decide
  have unwriteable : ¬ (killEntry signalFd).events &&& EPOLLOUT ≠ 0 :=
    show ¬ EPOLLIN &&& EPOLLOUT ≠ 0 by decide
  unfold watch
  rw [if_pos readable, if_neg unwriteable]
  rfl

variable {ω : Type} (files : ω → Files)

/-- What the instance keeps.  It is up as long as it and the eventfd are open; these two are its
own descriptors. -/
def table (s : Epoll ω) : Table where
  up := s.eventFd ∈ (files s.world).epolls ∧ s.signalFd ∈ (files s.world).counters
  reserved := [s.eventFd, s.signalFd]
  opened := (files s.world).opened
  watch fd := (((files s.world).list s.eventFd fd).map watch).getD Watch.none
  proper := (files s.world).proper
  kept up := by
    rintro fd (_ | ⟨_, _ | ⟨_, none⟩⟩)
    · exact (files s.world).within up.1
    · exact (files s.world).counted up.2
    · cases none
  quiet fd outside := by
    have unlisted : (files s.world).list s.eventFd fd = none := by
      by_contra some'
      exact outside ((files s.world).listed s.eventFd fd some')
    rw [unlisted]
    rfl

variable {files} {s : Epoll ω} {w : ω} {fd : Int}

/-- Only the descriptors of the world count. -/
theorem table_world (same : files w = files s.world) :
    table files { s with world := w } = table files s := by
  unfold table
  simp only [same]

theorem table_opening (proper : 0 ≤ fd) (same : files w = (files s.world).opening fd proper) :
    table files { s with world := w } = (table files s).opening fd proper := by
  ext d <;> simp only [table, same, Files.opening, Table.opening]

theorem table_closing (free : fd ∉ (table files s).reserved)
    (same : files w = (files s.world).closing fd) :
    table files { s with world := w } = (table files s).closing fd free := by
  have notInstance : s.eventFd ≠ fd := fun here => free (here ▸ .head _)
  have notSignal : s.signalFd ≠ fd := fun here => free (here ▸ .tail _ (.head _))
  ext d
  · simp only [table, same, Files.closing, Table.closing, Set.mem_sdiff, Set.mem_singleton_iff,
      notInstance, notSignal, not_false_eq_true, and_true]
  · simp only [table, same, Files.closing, Table.closing]
  · simp only [table, same, Files.closing, Table.closing]
  all_goals
    simp only [table, same, Files.closing, Table.closing, notInstance, false_or]
    by_cases here : d = fd
    · subst here
      simp
    · simp [here]

theorem table_listing {ev : EpollEvent} (member : fd ∈ (table files s).opened)
    (same : files w = (files s.world).listing fd s.eventFd ev member) :
    table files { s with world := w } = (table files s).watching fd (watch ev) member := by
  ext d
  · simp only [table, same, Files.listing, Table.watching]
  · simp only [table, same, Files.listing, Table.watching]
  · simp only [table, same, Files.listing, Table.watching]
  all_goals
    simp only [table, same, Files.listing, Table.watching, Function.update_self]
    by_cases here : d = fd
    · subst here
      simp
    · simp [here]

theorem table_dropping (member : fd ∈ (table files s).opened)
    (same : files w = (files s.world).dropping fd s.eventFd) :
    table files { s with world := w } = (table files s).watching fd Watch.none member := by
  ext d
  · simp only [table, same, Files.dropping, Table.watching]
  · simp only [table, same, Files.dropping, Table.watching]
  · simp only [table, same, Files.dropping, Table.watching]
  all_goals
    simp only [table, same, Files.dropping, Table.watching, Function.update_self]
    by_cases here : d = fd
    · subst here
      simp
    · simp [here]

variable {L : Linux ω} (kernel : Kernel L files)
include kernel

/-- **`subscribe` leaves its own entry**, whether there was one or not, and the rest of the files
as they were. -/
theorem subscribe_lists (ptr : UInt64) (r wr : Bool) (member : fd ∈ (files s.world).opened)
    (up : s.eventFd ∈ (files s.world).epolls) :
    ∃ w, subscribe L ptr fd r wr s = { s with world := w } ∧
      files w = (files s.world).listing fd s.eventFd (entry ptr r wr) member := by
  by_cases unlisted : (files s.world).list s.eventFd fd = none
  · obtain ⟨refused, same⟩ := kernel.unlisted s.eventFd fd (some (entry ptr r wr)) s.world up member
      unlisted
    generalize tried : L.epollCtl s.eventFd .mod fd (some (entry ptr r wr)) s.world = answer
      at refused same
    obtain ⟨ret, w₁⟩ := answer
    obtain rfl : ret = ⟨-1, .enoent⟩ := refused
    have same' : files w₁ = files s.world := same
    have added := (kernel.add s.eventFd fd (entry ptr r wr) w₁ (same' ▸ up) (same' ▸ member)
      (by rw [same']; exact unlisted)).2
    refine ⟨_, ?_, added.trans ?_⟩
    · simp [subscribe, ctl, tried]
    · simp only [same']
  · obtain ⟨done, same⟩ := kernel.mod s.eventFd fd (entry ptr r wr) s.world up member unlisted
    refine ⟨_, ?_, same⟩
    simp [subscribe, ctl, done]

/-- On a descriptor that is not open `subscribe` does nothing. -/
theorem subscribe_bad (ptr : UInt64) (r wr : Bool) (outside : fd ∉ (files s.world).opened) :
    ∃ w, subscribe L ptr fd r wr s = { s with world := w } ∧ files w = files s.world := by
  have failed := fun op ev w (same : files w = files s.world) =>
    (kernel.bad s.eventFd op fd ev w (.inr (by rw [same]; exact outside))).trans same
  have first := failed .mod (some (entry ptr r wr)) s.world rfl
  rcases tried : L.epollCtl s.eventFd .mod fd (some (entry ptr r wr)) s.world with ⟨ret, w₁⟩
  rw [tried] at first
  simp only [subscribe, ctl, tried]
  by_cases refused : ret.value ≠ 0
  swap
  · rw [if_neg refused]
    exact ⟨w₁, rfl, first⟩
  rw [if_pos refused]
  by_cases absent : ret.errno = .enoent
  · rw [if_pos absent]
    exact ⟨_, rfl, failed .add _ w₁ first⟩
  rw [if_neg absent]
  by_cases present : ret.errno = .eexist
  · rw [if_pos present]
    exact ⟨_, rfl, failed .mod _ w₁ first⟩
  · rw [if_neg present]
    exact ⟨w₁, rfl, first⟩

/-- **After `init` the instance lists the eventfd, under its own number, and nothing else.** -/
theorem init_starts {s' : Epoll ω} (started : init L s = (.ok (), s')) :
    (table files s').up ∧ s'.alive = true ∧ s'.signalFd < 2 ^ 31 ∧
      (files s'.world).list s'.eventFd s'.signalFd = some (killEntry s'.signalFd) ∧
      (∀ fd, fd ≠ s'.signalFd → (files s'.world).list s'.eventFd fd = none) ∧
      (files s'.world).opened = insert s'.signalFd (insert s'.eventFd (files s.world).opened) := by
  unfold init at started
  rcases made : L.epollCreate1 s.world with ⟨instance', w₁⟩
  simp only [made] at started
  split at started
  · cases started
  next proper₁ =>
  have created := kernel.create s.world
  rw [made] at created
  obtain ⟨-, files₁⟩ := created (Int.not_lt.mp proper₁)
  rcases counted : L.eventfd w₁ with ⟨counter, w₂⟩
  simp only [counted] at started
  split at started
  · cases started
  next proper₂ =>
  have signals := kernel.eventfd w₁
  rw [counted] at signals
  obtain ⟨small, -, files₂⟩ := signals (Int.not_lt.mp proper₂)
  simp only [files₁] at files₂
  -- both are open now, and the new instance lists nothing
  have isEpoll : instance'.value ∈ (files w₂).epolls := by
    rw [files₂]
    exact Set.mem_insert _ _
  have isCounter : counter.value ∈ (files w₂).counters := by
    rw [files₂]
    exact Set.mem_insert _ _
  have unlisted : ∀ fd, (files w₂).list instance'.value fd = none := by
    intro fd
    simp only [files₂, Files.counting, Files.creating, Function.update_self]
  obtain ⟨-, files₃⟩ := kernel.add instance'.value counter.value (killEntry counter.value) w₂ isEpoll
    ((files w₂).counted isCounter) (unlisted _)
  split at started
  · cases started
  cases started
  simp only [killEntry] at files₃
  refine ⟨?_, rfl, small, ?_, fun fd other => ?_, ?_⟩
  all_goals simp only [table, ctl, files₃, Files.listing]
  · exact ⟨isEpoll, isCounter⟩
  · simp only [Function.update_self]
    rfl
  · simp only [Function.update_self]
    exact (Function.update_of_ne other _ _).trans (unlisted fd)
  · simp only [files₂, Files.counting, Files.creating]

/-- **A backend on epoll keeps a table.** -/
theorem epoll_registers (address : Nat → UInt64) :
    Registers (backend L address) address (table files) where
  getaddrinfo host port s _ := table_world (kernel.getaddrinfo host port s.world)
  refused ai s _ failed := table_world (kernel.refused ai true s.world failed)
  socket ai s _ proper := by
    obtain ⟨fresh, same⟩ := kernel.socket ai true s.world proper
    exact ⟨fresh, table_opening proper same⟩
  ioctl fd s _ := table_world (kernel.ioctl fd s.world)
  connect fd ai s _ := table_world (kernel.connect fd ai s.world)
  getsockopt fd s _ := table_world (kernel.getsockopt fd s.world)
  read fd len s _ := table_world (kernel.read fd len s.world)
  write fd bytes s _ := table_world (kernel.write fd bytes s.world)
  missing k fd r wr s _ outside := by
    obtain ⟨w, done, same⟩ := subscribe_bad kernel (s := s) (address k) r wr outside
    show table files (subscribe L (address k) fd r wr s) = table files s
    rw [done]
    exact table_world same
  subscribe k fd r wr s up member _ := by
    obtain ⟨w, done, same⟩ := subscribe_lists kernel (s := s) (address k) r wr member up.1
    refine ⟨watch (entry (address k) r wr), ?_, fun _ => entry_hears _ r wr, fun _ => watch_only _⟩
    show table files (subscribe L (address k) fd r wr s) = _
    rw [done]
    exact table_listing member same
  clear fd s up member _ :=
    ⟨Watch.none, table_dropping member (kernel.del s.eventFd fd none s.world up.1 member)⟩
  close fd s _ _ free := table_closing free (kernel.close fd s.world)

end Epoll

end Manet.Net
