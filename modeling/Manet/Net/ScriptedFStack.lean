/-
# Manet.Net.ScriptedFStack — an F-Stack that answers from a script

The counterpart of `Manet.Net.ScriptedLinux` for kqueue.  `Queues` can be computed with, so the
world is that and a script; `board_kqueue` says that its calls satisfy the manual page.
-/
import Manet.Net.FStack

namespace Manet.Net

set_option autoImplicit false

/-- Nothing is open. -/
def Queues.empty : Queues where
  opened := ∅
  queues := ∅
  note _ _ _ := none
  proper _ member := absurd member (Finset.notMem_empty _)
  within := Finset.empty_subset ∅
  noted _ _ _ _ some' := absurd rfl some'

structure Board where
  script : Script := {}
  /-- The notes each wait finds ready, and the flags of their events; `none` if it fails. -/
  ready : List (Option (List (Int × Filter × UInt16))) := []
  next : Nat := 3
  queues : Queues := .empty
  numbered : ∀ fd ∈ queues.opened, fd < next := by exact fun fd none => absurd none (Finset.notMem_empty fd)

namespace Board

variable (b : Board)

/-- The next number is taken. -/
def opening : Board :=
  { b with
    next := b.next + 1
    queues := b.queues.opening b.next (Int.natCast_nonneg b.next)
    numbered := by
      intro fd member
      rcases Finset.mem_insert.mp member with rfl | before
      · omega
      · have bound := b.numbered fd before
        omega }

def creating : Board :=
  { b with
    next := b.next + 1
    queues := b.queues.creating b.next (Int.natCast_nonneg b.next)
    numbered := b.opening.numbered }

def closing (fd : Int) : Board :=
  { b with
    queues := b.queues.closing fd
    numbered := fun d member => b.numbered d (Finset.mem_of_mem_erase member) }

def changing (kq : Int) (kevs : List Kevent) : Ret × Board :=
  if kq ∈ b.queues.queues then
    (if (Queues.changes kq kevs b.queues).1 then ⟨0, .other 0⟩ else ⟨-1, .enoent⟩,
      { b with
        queues := (Queues.changes kq kevs b.queues).2
        numbered := by
          rw [Queues.changes_opened]
          exact b.numbered })
  else (⟨-1, .other 9⟩, b)

/-- What a kqueue reports of a note that is ready. -/
def report (kq : Int) (found : Int × Filter × UInt16) : Option Kevent :=
  (b.queues.note kq found.1 found.2.1).map fun udata =>
    { ident := found.1, filter := found.2.1, flags := found.2.2, fflags := 0, udata }

def waiting (kq : Int) (len : Nat) : Option (List Kevent) × Board :=
  if kq ∈ b.queues.queues then
    match b.ready with
    | [] => (some [], b)
    | found :: later =>
        (found.map fun found => (found.filterMap (b.report kq)).take len, { b with ready := later })
  else (none, b)

end Board

def board : Ff Board where
  getaddrinfo _ _ b := (b.script.addrs, b)
  socket _ b := (⟨b.next, .other 0⟩, b.opening)
  ioctl _ b := (⟨0, .other 0⟩, b)
  connect fd ai b :=
    let (ret, script) := scripted.connect fd ai b.script
    (ret, { b with script })
  close fd b := b.closing fd
  getsockopt _ b := ((0, 0), b)
  read fd len b :=
    let (answer, script) := scripted.read fd len b.script
    (answer, { b with script })
  write fd bytes b :=
    let (answer, script) := scripted.write fd bytes b.script
    (answer, { b with script })
  init _ b := b
  kqueue b := (⟨b.next, .other 0⟩, b.creating)
  change kq kevs b := b.changing kq kevs
  wait kq len b := b.waiting kq len

theorem Board.next_not_mem (b : Board) : (b.next : Int) ∉ b.queues.opened := fun member =>
  absurd (b.numbered _ member) (Int.lt_irrefl _)

theorem board_kqueue : Kqueue board Board.queues where
  getaddrinfo _ _ _ := rfl
  refused _ b failed := absurd failed (Int.not_lt.mpr (Int.natCast_nonneg b.next))
  socket _ b _ := ⟨b.next_not_mem, rfl⟩
  ioctl _ _ := rfl
  connect _ _ _ := rfl
  getsockopt _ _ := rfl
  read _ _ _ := rfl
  write _ _ _ := rfl
  close _ _ := rfl
  init _ _ := rfl
  kqueue b _ := ⟨b.next_not_mem, rfl⟩
  bad kq kevs b outside := by
    simp only [board, Board.changing, if_neg outside]
  change kq kevs b inside := by
    have changed : board.change kq kevs b = b.changing kq kevs := rfl
    rw [changed, Board.changing, if_pos inside]
    refine ⟨rfl, ?_⟩
    cases (Queues.changes kq kevs b.queues).1 <;> simp
  wait kq len b := by
    simp only [board, Board.waiting]
    split
    · split <;> rfl
    · rfl
  waitBad kq len b outside := by
    simp only [board, Board.waiting, if_neg outside]
  reports kq len b events reported := by
    simp only [board, Board.waiting] at reported
    split at reported
    swap
    · cases reported
    split at reported
    · cases reported
      exact ⟨Nat.zero_le len, fun ev member => absurd member List.not_mem_nil⟩
    obtain ⟨found, -, rfl⟩ := Option.map_eq_some_iff.mp reported
    refine ⟨List.length_take_le _ _, fun ev member => ?_⟩
    obtain ⟨source, -, made⟩ := List.mem_filterMap.mp (List.mem_of_mem_take member)
    obtain ⟨udata, noted, rfl⟩ := Option.map_eq_some_iff.mp made
    exact noted

end Manet.Net
