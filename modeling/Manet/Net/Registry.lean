/-
# Manet.Net.Registry — what a backend keeps of its descriptors

Whatever a backend is built on, it does one thing for the connections: it remembers which
descriptors are open, which of them it watches in which direction, and with what user data it
will report them.  `Table` is that memory and nothing else, with the operations the calls of
`net/concepts.hpp` amount to; a descriptor that is not open is not watched, by construction.

`Registers N address ν` says that `N` does this, seen through `ν`: every call commutes with its
operation on the table.  It asks little of `clear` and of a subscription to neither direction, which
no connection makes; `close` alone has to forget a descriptor.

`dial_table` is the account of a whole dial: the table is as before, or has one new descriptor
that was not open and is not watched.
-/
import Mathlib.Data.Set.Insert
import Mathlib.Logic.Function.Basic
import Manet.Net.Dial

namespace Manet.Net

set_option autoImplicit false

/-- The user data with which a descriptor is reported ready for reading, ready for writing, or
failed. -/
@[ext] structure Watch where
  read : Option UInt64
  write : Option UInt64
  error : Option UInt64
  deriving DecidableEq, Repr

namespace Watch

/-- The descriptor is not reported. -/
def none : Watch := ⟨.none, .none, .none⟩

/-- Readiness is reported in these directions, with this user data. -/
structure Hears (x : Watch) (data : UInt64) (reads writes : Bool) : Prop where
  read : x.read = if reads then some data else .none
  write : x.write = if writes then some data else .none

/-- Every report has this user data. -/
structure Only (x : Watch) (data : UInt64) : Prop where
  read : ∀ d, x.read = some d → d = data
  write : ∀ d, x.write = some d → d = data
  error : ∀ d, x.error = some d → d = data

theorem only_none (data : UInt64) : Only none data :=
  ⟨fun _ report => (by cases report), fun _ report => (by cases report),
    fun _ report => (by cases report)⟩

end Watch

/-- What a backend keeps: whether it has been started and not stopped, the descriptors it needs
itself, the open ones, and how each is watched. -/
@[ext] structure Table where
  up : Prop
  reserved : List Int
  opened : Set Int
  watch : Int → Watch
  proper : ∀ fd ∈ opened, 0 ≤ fd
  kept : up → ∀ fd ∈ reserved, fd ∈ opened
  quiet : ∀ fd, fd ∉ opened → watch fd = Watch.none

namespace Table

variable (t : Table) (fd : Int)

theorem idle_not_mem : (-1 : Int) ∉ t.opened := fun member =>
  absurd (t.proper (-1) member) (by decide)

def opening (proper : 0 ≤ fd) : Table where
  up := t.up
  reserved := t.reserved
  opened := insert fd t.opened
  watch := t.watch
  proper := by
    rintro d (rfl | member)
    · exact proper
    · exact t.proper d member
  kept up d member := Set.mem_insert_of_mem fd (t.kept up d member)
  quiet d outside := t.quiet d fun member => outside (Set.mem_insert_of_mem fd member)

def watching (x : Watch) (member : fd ∈ t.opened) : Table where
  up := t.up
  reserved := t.reserved
  opened := t.opened
  watch := Function.update t.watch fd x
  proper := t.proper
  kept := t.kept
  quiet d outside := by
    have other : d ≠ fd := fun same => outside (same ▸ member)
    rw [Function.update_of_ne other]
    exact t.quiet d outside

def closing (free : fd ∉ t.reserved) : Table where
  up := t.up
  reserved := t.reserved
  opened := t.opened \ {fd}
  watch := Function.update t.watch fd Watch.none
  proper d member := t.proper d member.1
  kept up d member :=
    ⟨t.kept up d member, fun same => free (Set.mem_singleton_iff.mp same ▸ member)⟩
  quiet d outside := by
    by_cases same : d = fd
    · rw [same, Function.update_self]
    · rw [Function.update_of_ne same]
      exact t.quiet d fun member => outside ⟨member, same⟩

/-- A descriptor that is opened and closed again leaves no trace. -/
theorem closing_opening {t : Table} {fd : Int} (proper : 0 ≤ fd) (fresh : fd ∉ t.opened)
    (free : fd ∉ (t.opening fd proper).reserved) : (t.opening fd proper).closing fd free = t := by
  ext d
  · rfl
  · rfl
  · constructor
    · rintro ⟨rfl | member, other⟩
      · exact absurd rfl other
      · exact member
    · intro member
      exact ⟨Set.mem_insert_of_mem fd member, fun same =>
        fresh (Set.mem_singleton_iff.mp same ▸ member)⟩
  all_goals
    by_cases same : d = fd
    · subst same
      simp [closing, opening, t.quiet d fresh]
    · simp [closing, opening, Function.update_of_ne same]

/-- What was watched before is forgotten by closing as well. -/
theorem closing_watching {t : Table} {fd : Int} {x : Watch} {member : fd ∈ t.opened}
    (free : fd ∉ t.reserved) : (t.watching fd x member).closing fd free = t.closing fd free := by
  ext d <;> simp [closing, watching]

end Table

section Registers

variable {ω : Type} (N : Backend ω) (address : Nat → UInt64) (ν : ω → Table)

/-- `N`, seen through `ν`, keeps a table; `address` is where the cookies point. -/
structure Registers : Prop where
  getaddrinfo : ∀ host port w, (ν w).up → ν (N.getaddrinfo host port w).2 = ν w
  refused : ∀ ai w, (ν w).up → (N.socket ai w).1.value < 0 → ν (N.socket ai w).2 = ν w
  socket : ∀ ai w, (ν w).up → ∀ proper : 0 ≤ (N.socket ai w).1.value,
    (N.socket ai w).1.value ∉ (ν w).opened ∧
      ν (N.socket ai w).2 = (ν w).opening (N.socket ai w).1.value proper
  ioctl : ∀ fd w, (ν w).up → ν (N.ioctl fd w).2 = ν w
  connect : ∀ fd ai w, (ν w).up → ν (N.connect fd ai w).2 = ν w
  getsockopt : ∀ fd w, (ν w).up → ν (N.getsockopt fd w).2 = ν w
  read : ∀ fd len w, (ν w).up → ν (N.read fd len w).2 = ν w
  write : ∀ fd bytes w, (ν w).up → ν (N.write fd bytes w).2 = ν w
  missing : ∀ k fd r wr w, (ν w).up → fd ∉ (ν w).opened → ν (N.subscribe k fd r wr w) = ν w
  subscribe : ∀ k fd r wr w, (ν w).up → ∀ member : fd ∈ (ν w).opened, fd ∉ (ν w).reserved →
    ∃ x, ν (N.subscribe k fd r wr w) = (ν w).watching fd x member ∧
      (r = true ∨ wr = true → x.Hears (address k) r wr) ∧
      (((ν w).watch fd).Only (address k) → x.Only (address k))
  clear : ∀ fd w, (ν w).up → ∀ member : fd ∈ (ν w).opened, fd ∉ (ν w).reserved →
    ∃ x, ν (N.clear fd w) = (ν w).watching fd x member
  close : ∀ fd w, (ν w).up → fd ∈ (ν w).opened → ∀ free : fd ∉ (ν w).reserved,
    ν (N.close fd w) = (ν w).closing fd free

variable {N address ν}

/-- A dial that has nothing yet leaves the table as it was, or opens one descriptor. -/
def Dialed (t t' : Table) (fd : Int) : Prop :=
  fd = -1 ∧ t' = t ∨ ∃ proper : 0 ≤ fd, fd ∉ t.opened ∧ t' = t.opening fd proper

theorem dialLoop_table (registers : Registers N address ν) (addrs : List AddrInfo)
    (result : DialResult) (w : ω) (calls : List NetCall) (up : (ν w).up)
    (nothing : result.fd = -1) :
    Dialed (ν w) (ν (dialLoop N addrs result w calls).2.1) (dialLoop N addrs result w calls).1.fd := by
  induction addrs generalizing result w calls with
  | nil => exact .inl ⟨nothing, rfl⟩
  | cons ai rest ih =>
      simp only [dialLoop]
      by_cases failed : (N.socket ai w).1.value < 0
      · rw [if_pos failed]
        have same := registers.refused ai w up failed
        rw [← same]
        exact ih _ _ _ (same ▸ up) nothing
      rw [if_neg failed]
      -- the descriptor is open; a way out that gives it up closes it again
      have proper : 0 ≤ (N.socket ai w).1.value := by omega
      obtain ⟨fresh, opened⟩ := registers.socket ai w up proper
      have free : (N.socket ai w).1.value ∉ (ν w).reserved := fun member => fresh ((ν w).kept up _ member)
      have isOpen : (N.socket ai w).1.value ∈
          ((ν w).opening (N.socket ai w).1.value proper).opened := Set.mem_insert _ _
      have closes : ∀ w', ν w' = (ν w).opening (N.socket ai w).1.value proper →
          ν (N.close (N.socket ai w).1.value w') = ν w := by
        intro w' same
        have closed := registers.close (N.socket ai w).1.value w' (by rw [same]; exact up)
          (by rw [same]; exact isOpen) (by rw [same]; exact free)
        rw [closed]
        simp only [same]
        exact Table.closing_opening proper fresh free
      have kept := registers.ioctl (N.socket ai w).1.value (N.socket ai w).2
        (by rw [opened]; exact up)
      split
      · have closed := closes _ (kept.trans opened)
        rw [← closed]
        exact ih _ _ _ (by rw [closed]; exact up) nothing
      have kept' := registers.connect (N.socket ai w).1.value ai
        (N.ioctl (N.socket ai w).1.value (N.socket ai w).2).2 (by rw [kept, opened]; exact up)
      split
      · exact .inr ⟨proper, fresh, kept'.trans (kept.trans opened)⟩
      split
      · exact .inr ⟨proper, fresh, kept'.trans (kept.trans opened)⟩
      · have closed := closes _ (kept'.trans (kept.trans opened))
        rw [← closed]
        exact ih _ _ _ (by rw [closed]; exact up) nothing

/-- **A dial changes nothing but the descriptor it returns.** -/
theorem dial_table (registers : Registers N address ν) (host : String) (port : UInt16) (w : ω)
    (up : (ν w).up) :
    Dialed (ν w) (ν (dial N host port w).2.1) (dial N host port w).1.fd := by
  unfold dial
  have same := registers.getaddrinfo host port w up
  rcases resolved : N.getaddrinfo host port w with ⟨_ | addrs, w'⟩
  · rw [resolved] at same
    exact .inl ⟨rfl, same⟩
  · rw [resolved] at same
    have looped := dialLoop_table registers addrs { fd := -1, err := some .econnrefused } w' []
      (same ▸ up) rfl
    rwa [same] at looped

end Registers

end Manet.Net
