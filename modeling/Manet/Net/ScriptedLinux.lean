/-
# Manet.Net.ScriptedLinux — a Linux that answers from a script

The least world with descriptors of its own: they are numbered in the order in which they are
opened, an epoll instance keeps its list, and what varies is read from a script, as in
`Manet.Net.Script`.  A batch of readiness names descriptors and masks; what the instance does not
list is not reported.  `linux_kernel` says that these calls satisfy the manual pages, so a theorem
about every kernel has a kernel to be about.
-/
import Mathlib.Data.List.Nodup
import Mathlib.Data.List.Dedup
import Manet.Net.Epoll

namespace Manet.Net

set_option autoImplicit false

structure Machine where
  script : Script := {}
  /-- What each `epoll_wait` finds ready; `none` if it fails. -/
  ready : List (Option (List (Int × UInt32))) := []
  next : Nat := 3
  opened : List Int := []
  epolls : List Int := []
  counters : List Int := []
  list : Int → Int → Option EpollEvent := fun _ _ => none
  numbered : ∀ fd ∈ opened, 0 ≤ fd ∧ fd < next := by intro _ none; cases none
  within : epolls ⊆ opened := by exact List.Subset.refl _
  counted : counters ⊆ opened := by exact List.Subset.refl _
  listed : ∀ ep fd, list ep fd ≠ none → fd ∈ opened := by exact fun _ _ some' => absurd rfl some'

namespace Machine

variable (m : Machine)

def files : Files where
  opened := { fd | fd ∈ m.opened }
  epolls := { fd | fd ∈ m.epolls }
  counters := { fd | fd ∈ m.counters }
  list := m.list
  proper fd member := (m.numbered fd member).1
  within _ member := m.within member
  counted _ member := m.counted member
  listed := m.listed

/-- The next number is taken. -/
def opening : Machine :=
  { m with
    next := m.next + 1
    opened := m.next :: m.opened
    numbered := by
      intro fd member
      rcases List.mem_cons.mp member with rfl | before
      · omega
      · have bounds := m.numbered fd before
        omega
    within := List.subset_cons_of_subset _ m.within
    counted := List.subset_cons_of_subset _ m.counted
    listed := fun ep fd some' => List.mem_cons_of_mem _ (m.listed ep fd some') }

def creating : Machine :=
  { m.opening with
    epolls := m.next :: m.epolls
    list := Function.update m.list m.next fun _ => none
    within := List.cons_subset_cons _ m.within
    listed := by
      intro ep fd some'
      by_cases same : ep = m.next
      · rw [same, Function.update_self] at some'
        exact absurd rfl some'
      · rw [Function.update_of_ne same] at some'
        exact m.opening.listed ep fd some' }

def counting : Machine :=
  { m.opening with
    counters := m.next :: m.counters
    counted := List.cons_subset_cons _ m.counted }

def closing (fd : Int) : Machine :=
  { m with
    opened := m.opened.filter (· ≠ fd)
    epolls := m.epolls.filter (· ≠ fd)
    counters := m.counters.filter (· ≠ fd)
    list := fun ep d => if ep = fd ∨ d = fd then none else m.list ep d
    numbered := fun d member => m.numbered d (List.mem_filter.mp member).1
    within := fun d member => List.mem_filter.mpr
      ⟨m.within (List.mem_filter.mp member).1, (List.mem_filter.mp member).2⟩
    counted := fun d member => List.mem_filter.mpr
      ⟨m.counted (List.mem_filter.mp member).1, (List.mem_filter.mp member).2⟩
    listed := by
      intro ep d some'
      by_cases touched : ep = fd ∨ d = fd
      · rw [if_pos touched] at some'
        exact absurd rfl some'
      · rw [if_neg touched] at some'
        refine List.mem_filter.mpr ⟨m.listed ep d some', ?_⟩
        simpa using fun same => touched (.inr same) }

/-- The entry of an open descriptor is set, or taken out. -/
def listing (ep fd : Int) (ev : Option EpollEvent) (member : fd ∈ m.opened) : Machine :=
  { m with
    list := Function.update m.list ep (Function.update (m.list ep) fd ev)
    listed := by
      intro ep' d some'
      by_cases same : ep' = ep
      · subst same
        rw [Function.update_self] at some'
        by_cases here : d = fd
        · exact here ▸ member
        · rw [Function.update_of_ne here] at some'
          exact m.listed ep' d some'
      · rw [Function.update_of_ne same] at some'
        exact m.listed ep' d some' }

/-- `epoll_ctl` -/
def ctl (ep : Int) (op : Ctl) (fd : Int) (ev : Option EpollEvent) : Ret × Machine :=
  if ok : ep ∈ m.epolls ∧ fd ∈ m.opened then
    match op, m.list ep fd with
    | .add, none | .mod, some _ =>
        if ev.isSome then (⟨0, .other 0⟩, m.listing ep fd ev ok.2) else (⟨-1, .other 14⟩, m)
    | .add, some _ => (⟨-1, .eexist⟩, m)
    | .mod, none => (⟨-1, .enoent⟩, m)
    | .del, none => (⟨-1, .enoent⟩, m)
    | .del, some _ => (⟨0, .other 0⟩, m.listing ep fd none ok.2)
  else (⟨-1, .other 9⟩, m)

/-- What an instance reports of a descriptor that is ready in this way. -/
def report (ep : Int) (found : Int × UInt32) : Option EpollEvent :=
  (m.list ep found.1).bind fun entry =>
    let events := found.2 &&& (entry.events ||| Epoll.EPOLLERR ||| Epoll.EPOLLHUP)
    if found.1 ∈ m.counters ∧ events &&& Epoll.EPOLLIN = 0 then none
    else some { events, data := entry.data }

/-- `epoll_wait`; the last mention of a descriptor counts. -/
def wait (ep : Int) (len : Nat) : Option (List EpollEvent) × Machine :=
  match m.ready with
  | [] => (some [], m)
  | found :: later =>
      let m' := { m with ready := later }
      (found.map fun found =>
        ((found.pwFilter fun a b => a.1 ≠ b.1).filterMap (m.report ep)).take len, m')

end Machine

def linux : Linux Machine where
  getaddrinfo _ _ m := (m.script.addrs, m)
  socket _ _ m := (⟨m.next, .other 0⟩, m.opening)
  ioctl _ m := (⟨0, .other 0⟩, m)
  connect fd ai m :=
    let (ret, script) := scripted.connect fd ai m.script
    (ret, { m with script })
  close fd m := m.closing fd
  getsockopt _ m := ((0, 0), m)
  read fd len m :=
    let (answer, script) := scripted.read fd len m.script
    (answer, { m with script })
  write fd bytes m :=
    let (answer, script) := scripted.write fd bytes m.script
    (answer, { m with script })
  epollCreate1 m := (⟨m.next, .other 0⟩, m.creating)
  eventfd m :=
    if m.next < 2 ^ 31 then (⟨m.next, .other 0⟩, m.counting) else (⟨-1, .other 24⟩, m)
  epollCtl ep op fd ev m := m.ctl ep op fd ev
  epollWait ep len m := m.wait ep len

namespace Machine

variable {m : Machine}

theorem next_not_mem : (m.next : Int) ∉ m.opened := by
  intro member
  have bounds := m.numbered _ member
  omega

theorem files_closing (fd : Int) : (m.closing fd).files = m.files.closing fd := by
  ext d
  · simp [files, closing, Files.closing]
  · simp [files, closing, Files.closing]
  · simp [files, closing, Files.closing]
  · rfl

theorem report_reports {ep : Int} {found : Int × UInt32} {ev : EpollEvent}
    (reported : m.report ep found = some ev) : Reports m.files ep found.1 ev := by
  obtain ⟨entry, listed, made⟩ := Option.bind_eq_some_iff.mp reported
  dsimp only at made
  split at made
  · cases made
  next readable =>
  cases made
  exact ⟨entry, listed, rfl, fun counter _ _ none => readable ⟨counter, none⟩⟩

/-- The events of a batch, and the descriptors they are reported for. -/
theorem filterMap_reports (ep : Int) (found : List (Int × UInt32))
    (distinct : found.Pairwise fun a b => a.1 ≠ b.1) :
    ∃ fds : List Int, fds.Nodup ∧ (∀ fd ∈ fds, ∃ mask, (fd, mask) ∈ found) ∧
      List.Forall₂ (Reports m.files ep) fds (found.filterMap (m.report ep)) := by
  induction found with
  | nil => exact ⟨[], .nil, by simp, .nil⟩
  | cons first later ih =>
      obtain ⟨apart, distinct'⟩ := List.pairwise_cons.mp distinct
      obtain ⟨fds, nodup, from', reports⟩ := ih distinct'
      have wider : ∀ fd ∈ fds, ∃ mask, (fd, mask) ∈ first :: later := by
        intro fd member
        obtain ⟨mask, there⟩ := from' fd member
        exact ⟨mask, List.mem_cons_of_mem _ there⟩
      cases reported : m.report ep first with
      | none =>
          rw [List.filterMap_cons_none reported]
          exact ⟨fds, nodup, wider, reports⟩
      | some ev =>
          rw [List.filterMap_cons_some reported]
          refine ⟨first.1 :: fds, List.nodup_cons.mpr ⟨fun member => ?_, nodup⟩, ?_,
            .cons (report_reports reported) reports⟩
          · obtain ⟨mask, there⟩ := from' _ member
            exact apart _ there rfl
          · intro fd member
            rcases List.mem_cons.mp member with rfl | later'
            · exact ⟨first.2, List.mem_cons_self⟩
            · exact wider fd later'

end Machine

theorem linux_kernel : Kernel linux Machine.files where
  getaddrinfo _ _ _ := rfl
  refused _ _ m failed := absurd failed (Int.not_lt.mpr (Int.natCast_nonneg m.next))
  socket _ _ m _ := by
    refine ⟨Machine.next_not_mem, ?_⟩
    ext d <;> simp [linux, Machine.files, Machine.opening, Files.opening]
  ioctl _ _ := rfl
  connect _ _ _ := rfl
  getsockopt _ _ := rfl
  read _ _ _ := rfl
  write _ _ _ := rfl
  close fd m := Machine.files_closing fd
  create m _ := by
    refine ⟨Machine.next_not_mem, ?_⟩
    ext d <;> simp [linux, Machine.files, Machine.opening, Machine.creating, Files.creating]
  eventfd m proper := by
    by_cases small : m.next < 2 ^ 31
    · have made : linux.eventfd m = (⟨m.next, .other 0⟩, m.counting) := if_pos small
      simp only [made]
      refine ⟨by omega, Machine.next_not_mem, ?_⟩
      ext d <;> simp [Machine.files, Machine.opening, Machine.counting, Files.counting]
    · have refused : linux.eventfd m = (⟨-1, .other 24⟩, m) := if_neg small
      rw [refused] at proper
      cases proper
  bad ep op fd ev m outside := by
    have refused : ¬ (ep ∈ m.epolls ∧ fd ∈ m.opened) := by
      rintro ⟨isEpoll, isOpen⟩
      rcases outside with noEpoll | closed
      · exact noEpoll isEpoll
      · exact closed isOpen
    simp only [linux, Machine.ctl, dif_neg refused]
  mod ep fd ev m isEpoll isOpen some' := by
    obtain ⟨old, listed⟩ := Option.ne_none_iff_exists'.mp some'
    have listed' : m.list ep fd = some old := listed
    have ok : ep ∈ m.epolls ∧ fd ∈ m.opened := ⟨isEpoll, isOpen⟩
    simp only [linux, Machine.ctl, dif_pos ok, listed']
    exact ⟨rfl, rfl⟩
  unlisted ep fd ev m isEpoll isOpen none := by
    have none' : m.list ep fd = .none := none
    have ok : ep ∈ m.epolls ∧ fd ∈ m.opened := ⟨isEpoll, isOpen⟩
    simp only [linux, Machine.ctl, dif_pos ok, none', and_self]
  add ep fd ev m isEpoll isOpen none := by
    have none' : m.list ep fd = .none := none
    have ok : ep ∈ m.epolls ∧ fd ∈ m.opened := ⟨isEpoll, isOpen⟩
    simp only [linux, Machine.ctl, dif_pos ok, none']
    exact ⟨rfl, rfl⟩
  del ep fd ev m isEpoll isOpen := by
    have ok : ep ∈ m.epolls ∧ fd ∈ m.opened := ⟨isEpoll, isOpen⟩
    cases listed : m.list ep fd with
    | none =>
        simp only [linux, Machine.ctl, dif_pos ok, listed]
        have same : Function.update (m.list ep) fd none = m.list ep :=
          Function.update_eq_self_iff.mpr listed.symm
        simp only [Machine.files, Files.dropping, same, Function.update_eq_self]
    | some old =>
        simp only [linux, Machine.ctl, dif_pos ok, listed]
        rfl
  wait ep len m := by
    rcases ready : m.ready with _ | ⟨found, later⟩ <;> simp only [linux, Machine.wait, ready]
    rfl
  reports ep len m events reported := by
    rcases ready : m.ready with _ | ⟨found, later⟩ <;>
      simp only [linux, Machine.wait, ready] at reported
    · cases reported
      exact ⟨Nat.zero_le len, [], .nil, .nil⟩
    · obtain ⟨found, rfl, rfl⟩ := Option.map_eq_some_iff.mp reported
      refine ⟨List.length_take_le _ _, ?_⟩
      obtain ⟨fds, nodup, -, reports⟩ := Machine.filterMap_reports (m := m) ep
        (found.pwFilter fun a b => a.1 ≠ b.1) (List.pairwise_pwFilter found)
      exact ⟨fds.take len, nodup.sublist (List.take_sublist _ _), List.forall₂_take len reports⟩

end Manet.Net
