/-
# Manet.Net.FStack — the backend on F-Stack

`FStack` (`net/fstack.hpp`, `net/fstack.cc`) over a user-space network stack with FreeBSD's
kqueue.  A kqueue holds one note for each descriptor and filter, with its user data; `kevent`
takes a list of changes.  Since the backend asks for no events in return, a change that fails
ends the call, and those after it are not made.

What a kqueue does is `Queues`, from its manual page: `changes` applies a list of changes as far
as it goes, and `Kqueue F queues` says that the calls of `F` do that.  A subscription to some
direction is then exact, whatever was registered before (`fstack_registers`); one to neither, and
`clear`, stop at the first filter that was not registered and leave the other one.

`signal` triggers a note of the user filter.  Nothing ever adds one, so the trigger fails, and no
event is ever a signal (`Silent`).
-/
import Mathlib.Algebra.Group.Nat.Defs
import Mathlib.Data.Finset.Erase
import Mathlib.Data.Finset.Insert
import Manet.Net.Registry
import Manet.Net.Script

namespace Manet.Net

set_option autoImplicit false

/-- `EVFILT_*` -/
inductive Filter where
  | read
  | write
  | user
  deriving DecidableEq, Repr

/-- `struct kevent`, without `data`. -/
structure Kevent where
  ident : Int
  filter : Filter
  flags : UInt16
  fflags : UInt32
  udata : UInt64
  deriving DecidableEq, Repr

/-- The calls of `ff_api.h`. -/
structure Ff (ω : Type) where
  getaddrinfo : String → UInt16 → ω → Option (List AddrInfo) × ω
  socket : AddrInfo → ω → Ret × ω
  ioctl : Int → ω → Ret × ω
  connect : Int → AddrInfo → ω → Ret × ω
  close : Int → ω → ω
  getsockopt : Int → ω → (Int × Int) × ω
  read : Int → Nat → ω → Except Errno (List UInt8) × ω
  write : Int → List UInt8 → ω → Except Errno Nat × ω
  /-- With the arguments of the command line. -/
  init : List String → ω → ω
  kqueue : ω → Ret × ω
  /-- Changes, with no room for events. -/
  change : Int → List Kevent → ω → Ret × ω
  /-- Events, with no changes; `none`: their number is negative. -/
  wait : Int → Nat → ω → Option (List Kevent) × ω

/-- The static member of `FStack`, and the world. -/
structure FStack (ω : Type) where
  kq : Int := -1
  world : ω

namespace FStack

def EV_ADD : UInt16 := 0x0001
def EV_DELETE : UInt16 := 0x0002
def EV_ENABLE : UInt16 := 0x0004
def EV_CLEAR : UInt16 := 0x0020
def EV_ERROR : UInt16 := 0x4000
def EV_EOF : UInt16 := 0x8000
def NOTE_TRIGGER : UInt32 := 0x01000000
def KILL_IDENT : Int := 1

variable {ω : Type} (F : Ff ω)

/-- `ff_kevent` on this queue. -/
def change (kevs : List Kevent) (s : FStack ω) : Ret × FStack ω :=
  let (ret, w) := F.change s.kq kevs s.world
  (ret, { s with world := w })

def deletion (ptr : UInt64) (fd : Int) (filter : Filter) : Kevent :=
  { ident := fd, filter, flags := EV_DELETE, fflags := 0, udata := ptr }

def addition (ptr : UInt64) (fd : Int) (filter : Filter) : Kevent :=
  { ident := fd, filter, flags := EV_ADD ||| EV_ENABLE ||| EV_CLEAR, fflags := 0, udata := ptr }

def enabling (ptr : UInt64) (fd : Int) (kev : Kevent) : Kevent :=
  { ident := fd, filter := kev.filter, flags := EV_ENABLE, fflags := 0, udata := ptr }

/-- The `kev` of the first half of `subscribe`. -/
def deletions (ptr : UInt64) (fd : Int) (wantRead wantWrite : Bool) : List Kevent :=
  (if !wantRead then [deletion ptr fd .read] else []) ++
    if !wantWrite then [deletion ptr fd .write] else []

/-- The `kev` of the second half. -/
def additions (ptr : UInt64) (fd : Int) (wantRead wantWrite : Bool) : List Kevent :=
  (if wantRead then [addition ptr fd .read] else []) ++
    if wantWrite then [addition ptr fd .write] else []

/-- `ptr` is the address behind a cookie. -/
def subscribe (ptr : UInt64) (fd : Int) (wantRead wantWrite : Bool) (s : FStack ω) : FStack ω :=
  let kev := deletions ptr fd wantRead wantWrite
  let s := if 0 < kev.length then (change F kev s).2 else s
  let kev := additions ptr fd wantRead wantWrite
  if kev.length = 0 then s
  else
    let (ret, s) := change F kev s
    if ret.value < 0 then
      if ret.errno = .eexist then (change F (kev.map (enabling ptr fd)) s).2
      -- `EBADF` is ignored, anything else only printed
      else s
    else s

def clear (fd : Int) (s : FStack ω) : FStack ω :=
  (change F [deletion 0 fd .read, deletion 0 fd .write] s).2

/-- The text of the exception it throws, if it does. -/
def init (config : Option String) (s : FStack ω) : Except String Unit × FStack ω :=
  let args := match config with
    | some file => ["-c", file]
    | none => []
  let (made, w) := F.kqueue (F.init args s.world)
  let s : FStack ω := { kq := made.value, world := w }
  if s.kq < 0 then (.error "failed to create kqueue", s) else (.ok (), s)

def signal (s : FStack ω) : FStack ω :=
  (change F [{ ident := KILL_IDENT, filter := .user, flags := 0, fflags := NOTE_TRIGGER, udata := 0 }] s).2

def stop (s : FStack ω) : FStack ω :=
  if 0 ≤ s.kq then { kq := -1, world := F.close s.kq s.world } else s

/-- The length is clamped to what an `int` holds. -/
def poll (len : Nat) (s : FStack ω) : Option (List Kevent) × FStack ω :=
  let (events, w) := F.wait s.kq (min len (2 ^ 31 - 1)) s.world
  (events, { s with world := w })

def evSignal (ev : Kevent) : Bool := ev.ident = KILL_IDENT ∧ ev.filter = .user

def evClose (ev : Kevent) : Bool := ev.flags &&& EV_EOF ≠ 0

def evError (ev : Kevent) : Bool := ev.flags &&& EV_ERROR ≠ 0

def evReadable (ev : Kevent) : Bool := ev.filter = .read

def evWriteable (ev : Kevent) : Bool := ev.filter = .write

def getUserData (ev : Kevent) : UInt64 := ev.udata

/-- What a connection can ask of an event. -/
def event (ev : Kevent) : Event where
  close := evClose ev
  error := evError ev
  readable := evReadable ev
  writeable := evWriteable ev

variable (address : Nat → UInt64)

def backend : Backend (FStack ω) where
  getaddrinfo host port s :=
    let (addrs, w) := F.getaddrinfo host port s.world
    (addrs, { s with world := w })
  socket ai s :=
    let (ret, w) := F.socket ai s.world
    (ret, { s with world := w })
  ioctl fd s :=
    let (ret, w) := F.ioctl fd s.world
    (ret, { s with world := w })
  connect fd ai s :=
    let (ret, w) := F.connect fd ai s.world
    (ret, { s with world := w })
  close fd s := { s with world := F.close fd s.world }
  getsockopt fd s :=
    let (ret, w) := F.getsockopt fd s.world
    (ret, { s with world := w })
  subscribe k fd wantRead wantWrite s := subscribe F (address k) fd wantRead wantWrite s
  clear fd s := clear F fd s
  read fd len s :=
    let (answer, w) := F.read fd len s.world
    (answer, { s with world := w })
  write fd bytes s :=
    let (answer, w) := F.write fd bytes s.world
    (answer, { s with world := w })

end FStack

/-! ## What a kqueue does -/

/-- The descriptors of a process: the open ones, the kqueues among them, and the user data each
kqueue holds for an identifier and a filter.  A note of a descriptor needs it open; the user
filter is not about descriptors. -/
@[ext] structure Queues where
  opened : Finset Int
  queues : Finset Int
  note : Int → Int → Filter → Option UInt64
  proper : ∀ fd ∈ opened, 0 ≤ fd
  within : queues ⊆ opened
  noted : ∀ kq fd filter, filter ≠ .user → note kq fd filter ≠ none → fd ∈ opened

namespace Queues

variable (t : Queues)

def opening (fd : Int) (proper : 0 ≤ fd) : Queues where
  opened := insert fd t.opened
  queues := t.queues
  note := t.note
  proper d member := by
    rcases Finset.mem_insert.mp member with rfl | before
    · exact proper
    · exact t.proper d before
  within := t.within.trans (Finset.subset_insert fd t.opened)
  noted kq d filter real some' := Finset.mem_insert_of_mem (t.noted kq d filter real some')

/-- A new kqueue has no notes. -/
def creating (kq : Int) (proper : 0 ≤ kq) : Queues where
  opened := insert kq t.opened
  queues := insert kq t.queues
  note := Function.update t.note kq fun _ _ => none
  proper := (t.opening kq proper).proper
  within := Finset.insert_subset_insert kq t.within
  noted q d filter real some' := by
    by_cases same : q = kq
    · rw [same, Function.update_self] at some'
      exact absurd rfl some'
    · rw [Function.update_of_ne same] at some'
      exact Finset.mem_insert_of_mem (t.noted q d filter real some')

/-- Closing a descriptor takes its notes out of every queue. -/
def closing (fd : Int) : Queues where
  opened := t.opened.erase fd
  queues := t.queues.erase fd
  note kq d filter := if kq = fd ∨ d = fd ∧ filter ≠ .user then none else t.note kq d filter
  proper d member := t.proper d (Finset.mem_of_mem_erase member)
  within := Finset.erase_subset_erase fd t.within
  noted kq d filter real some' := by
    by_cases touched : kq = fd ∨ d = fd ∧ filter ≠ .user
    · rw [if_pos touched] at some'
      exact absurd rfl some'
    · rw [if_neg touched] at some'
      refine Finset.mem_erase.mpr ⟨fun same => touched (.inr ⟨same, real⟩), ?_⟩
      exact t.noted kq d filter real some'

/-- A note is set, or taken out. -/
def setting (kq fd : Int) (filter : Filter) (udata : Option UInt64)
    (member : filter = .user ∨ udata = none ∨ fd ∈ t.opened) : Queues where
  opened := t.opened
  queues := t.queues
  note q d f := if q = kq ∧ d = fd ∧ f = filter then udata else t.note q d f
  proper := t.proper
  within := t.within
  noted q d f real some' := by
    by_cases here : q = kq ∧ d = fd ∧ f = filter
    · rw [if_pos here] at some'
      obtain ⟨rfl, rfl, rfl⟩ := here
      rcases member with user | none | opened
      · exact absurd user real
      · exact absurd none some'
      · exact opened
    · rw [if_neg here] at some'
      exact t.noted q d f real some'

/-- One change; `none` if it fails.  A change of a note that is there keeps it, with the new user
data; one that is not there has to be added. -/
def change (kq : Int) (kev : Kevent) : Option Queues :=
  if kev.flags &&& FStack.EV_DELETE ≠ 0 then
    if t.note kq kev.ident kev.filter = none then none
    else some (t.setting kq kev.ident kev.filter none (.inr (.inl rfl)))
  else if t.note kq kev.ident kev.filter = none ∧ kev.flags &&& FStack.EV_ADD = 0 then none
  else if member : kev.filter = .user ∨ kev.ident ∈ t.opened then
    some (t.setting kq kev.ident kev.filter (some kev.udata) (member.imp_right .inr))
  else none

/-- The changes are made in order, up to the first that fails; the answer is whether none did. -/
def changes (kq : Int) : List Kevent → Queues → Bool × Queues
  | [], t => (true, t)
  | kev :: rest, t =>
      match t.change kq kev with
      | some t' => changes kq rest t'
      | none => (false, t)

end Queues

section Kqueue

variable {ω : Type} (F : Ff ω) (queues : ω → Queues)

/-- The calls of `F` do to the descriptors what their manual pages say. -/
structure Kqueue : Prop where
  getaddrinfo : ∀ host port w, queues (F.getaddrinfo host port w).2 = queues w
  refused : ∀ ai w, (F.socket ai w).1.value < 0 → queues (F.socket ai w).2 = queues w
  socket : ∀ ai w, ∀ proper : 0 ≤ (F.socket ai w).1.value,
    (F.socket ai w).1.value ∉ (queues w).opened ∧
      queues (F.socket ai w).2 = (queues w).opening (F.socket ai w).1.value proper
  ioctl : ∀ fd w, queues (F.ioctl fd w).2 = queues w
  connect : ∀ fd ai w, queues (F.connect fd ai w).2 = queues w
  getsockopt : ∀ fd w, queues (F.getsockopt fd w).2 = queues w
  read : ∀ fd len w, queues (F.read fd len w).2 = queues w
  write : ∀ fd bytes w, queues (F.write fd bytes w).2 = queues w
  close : ∀ fd w, queues (F.close fd w) = (queues w).closing fd
  init : ∀ args w, queues (F.init args w) = queues w
  kqueue : ∀ w, ∀ proper : 0 ≤ (F.kqueue w).1.value,
    (F.kqueue w).1.value ∉ (queues w).opened ∧
      queues (F.kqueue w).2 = (queues w).creating (F.kqueue w).1.value proper
  /-- `EBADF` -/
  bad : ∀ kq kevs w, kq ∉ (queues w).queues → queues (F.change kq kevs w).2 = queues w
  change : ∀ kq kevs w, kq ∈ (queues w).queues →
    queues (F.change kq kevs w).2 = (Queues.changes kq kevs (queues w)).2 ∧
      ((F.change kq kevs w).1.value < 0 ↔ (Queues.changes kq kevs (queues w)).1 = false)
  wait : ∀ kq len w, queues (F.wait kq len w).2 = queues w
  /-- `EBADF` -/
  waitBad : ∀ kq len w, kq ∉ (queues w).queues → (F.wait kq len w).1 = none
  /-- At most `len` events, each of a note, with its user data. -/
  reports : ∀ kq len w events, (F.wait kq len w).1 = some events → events.length ≤ len ∧
    ∀ ev ∈ events, (queues w).note kq ev.ident ev.filter = some ev.udata

end Kqueue

namespace Queues

variable {t t' : Queues} {kq fd : Int}

/-- From `t` to `t'` only notes of one descriptor have changed. -/
structure Touches (t t' : Queues) (kq fd : Int) : Prop where
  opened : t'.opened = t.opened
  queues : t'.queues = t.queues
  elsewhere : ∀ q d f, ¬ (q = kq ∧ d = fd ∧ f ≠ .user) → t'.note q d f = t.note q d f

theorem Touches.refl (t : Queues) (kq fd : Int) : Touches t t kq fd := ⟨rfl, rfl, fun _ _ _ _ => rfl⟩

theorem Touches.trans {t'' : Queues} (first : Touches t t' kq fd) (second : Touches t' t'' kq fd) :
    Touches t t'' kq fd :=
  ⟨second.opened.trans first.opened, second.queues.trans first.queues,
    fun q d f outside => (second.elsewhere q d f outside).trans (first.elsewhere q d f outside)⟩

/-- Of a descriptor that is not open there are no notes to change. -/
theorem Touches.outside (touches : Touches t t' kq fd) (outside : fd ∉ t.opened) : t' = t := by
  have absent : ∀ (u : Queues), fd ∉ u.opened → ∀ q f, f ≠ .user → u.note q fd f = none := by
    intro u outside q f real
    by_contra some'
    exact outside (u.noted q fd f real some')
  refine Queues.ext touches.opened touches.queues (funext fun q => funext fun d => funext fun f => ?_)
  by_cases here : q = kq ∧ d = fd ∧ f ≠ .user
  · obtain ⟨-, rfl, real⟩ := here
    rw [absent t outside q f real, absent t' (by rw [touches.opened]; exact outside) q f real]
  · exact touches.elsewhere q d f here

theorem setting_touches {filter : Filter} {udata : Option UInt64}
    (member : filter = .user ∨ udata = none ∨ fd ∈ t.opened) (real : filter ≠ .user) :
    Touches t (t.setting kq fd filter udata member) kq fd := by
  refine ⟨rfl, rfl, fun q d f outside => if_neg ?_⟩
  rintro ⟨here, this, rfl⟩
  exact outside ⟨here, this, real⟩

theorem change_opened {kev : Kevent} (changed : t.change kq kev = some t') : t'.opened = t.opened := by
  unfold change at changed
  split at changed
  · split at changed <;> cases changed
    rfl
  · split at changed
    · cases changed
    split at changed <;> cases changed
    rfl

theorem changes_opened (kq : Int) (kevs : List Kevent) :
    ∀ t : Queues, (changes kq kevs t).2.opened = t.opened := by
  induction kevs with
  | nil => exact fun _ => rfl
  | cons kev rest ih =>
      intro t
      simp only [changes]
      split
      next t' changed => exact (ih t').trans (change_opened changed)
      · rfl

theorem change_touches {kev : Kevent} (real : kev.filter ≠ .user) (changed : t.change kq kev = some t') :
    Touches t t' kq kev.ident := by
  unfold change at changed
  split at changed
  · split at changed <;> cases changed
    exact setting_touches _ real
  · split at changed
    · cases changed
    split at changed <;> cases changed
    exact setting_touches _ real

theorem changes_touches (kq : Int) (kevs : List Kevent)
    (about : ∀ kev ∈ kevs, kev.ident = fd ∧ kev.filter ≠ .user) :
    ∀ t : Queues, Touches t (changes kq kevs t).2 kq fd := by
  induction kevs with
  | nil => exact fun t => .refl t kq fd
  | cons kev rest ih =>
      intro t
      obtain ⟨here, real⟩ := about kev List.mem_cons_self
      simp only [changes]
      split
      next t' changed =>
        exact (here ▸ change_touches real changed).trans
          (ih (fun kev member => about kev (List.mem_cons_of_mem _ member)) t')
      · exact .refl t kq fd

/-- A note has the user data it had, or that of a change. -/
theorem changes_note (kevs : List Kevent) {q d : Int} {f : Filter} {u : UInt64} :
    ∀ t : Queues, (changes kq kevs t).2.note q d f = some u →
      t.note q d f = some u ∨ ∃ kev ∈ kevs, kev.udata = u := by
  induction kevs with
  | nil => exact fun t noted => .inl noted
  | cons kev rest ih =>
      intro t noted
      simp only [changes] at noted
      split at noted
      next t' changed =>
        rcases ih t' noted with noted' | ⟨kev', member, same⟩
        · -- the change itself
          have set' : ∀ {filter udata member}, t' = t.setting kq kev.ident filter udata member →
              t.note q d f = some u ∨ udata = some u := by
            rintro filter udata member rfl
            simp only [setting] at noted'
            split at noted'
            · exact .inr noted'
            · exact .inl noted'
          unfold change at changed
          split at changed
          · split at changed <;> cases changed
            exact .inl ((set' rfl).resolve_right (by simp))
          · split at changed
            · cases changed
            split at changed <;> cases changed
            exact (set' rfl).imp_right fun same => ⟨kev, List.mem_cons_self, Option.some.inj same⟩
        · exact .inr ⟨kev', List.mem_cons_of_mem _ member, same⟩
      · exact .inl noted

theorem change_deletion (ptr : UInt64) (filter : Filter) (t : Queues) :
    t.change kq (FStack.deletion ptr fd filter) = if t.note kq fd filter = none then none
      else some (t.setting kq fd filter none (.inr (.inl rfl))) := by
  have deletes : (FStack.deletion ptr fd filter).flags &&& FStack.EV_DELETE ≠ 0 := by
    show FStack.EV_DELETE &&& FStack.EV_DELETE ≠ 0
    decide
  exact if_pos deletes

/-- A deletion leaves nothing behind, whether it fails or not. -/
theorem changes_deletion (ptr : UInt64) (filter : Filter) (t : Queues) :
    (changes kq [FStack.deletion ptr fd filter] t).2.note kq fd filter = none := by
  by_cases absent : t.note kq fd filter = none
  · simp only [changes, change_deletion, if_pos absent]
    exact absent
  · simp only [changes, change_deletion, if_neg absent]
    exact if_pos ⟨rfl, rfl, rfl⟩

theorem change_addition (ptr : UInt64) (filter : Filter) {t : Queues} (member : fd ∈ t.opened) :
    t.change kq (FStack.addition ptr fd filter) =
      some (t.setting kq fd filter (some ptr) (.inr (.inr member))) := by
  have keeps : ¬ (FStack.addition ptr fd filter).flags &&& FStack.EV_DELETE ≠ 0 := by
    show ¬ (FStack.EV_ADD ||| FStack.EV_ENABLE ||| FStack.EV_CLEAR) &&& FStack.EV_DELETE ≠ 0
    decide
  have adds : ¬ (FStack.addition ptr fd filter).flags &&& FStack.EV_ADD = 0 := by
    show ¬ (FStack.EV_ADD ||| FStack.EV_ENABLE ||| FStack.EV_CLEAR) &&& FStack.EV_ADD = 0
    decide
  unfold change
  rw [if_neg keeps, if_neg fun both => adds both.2]
  exact dif_pos (.inr member)

/-- The additions of a subscription are all made. -/
theorem changes_additions (kq : Int) (ptr : UInt64) (r wr : Bool) {t : Queues} (member : fd ∈ t.opened) :
    (changes kq (FStack.additions ptr fd r wr) t).1 = true ∧
      (changes kq (FStack.additions ptr fd r wr) t).2.note kq fd .read =
        (if r then some ptr else t.note kq fd .read) ∧
      (changes kq (FStack.additions ptr fd r wr) t).2.note kq fd .write =
        if wr then some ptr else t.note kq fd .write := by
  have set' : ∀ f (t : Queues) (member : fd ∈ t.opened),
      (t.setting kq fd f (some ptr) (.inr (.inr member))).note kq fd f = some ptr ∧
      ∀ g, g ≠ f → (t.setting kq fd f (some ptr) (.inr (.inr member))).note kq fd g = t.note kq fd g :=
    fun f t member => ⟨if_pos ⟨rfl, rfl, rfl⟩, fun g other => if_neg fun here => other here.2.2⟩
  cases r <;> cases wr
  · exact ⟨rfl, rfl, rfl⟩
  · have made : changes kq (FStack.additions ptr fd false true) t =
        (true, t.setting kq fd .write (some ptr) (.inr (.inr member))) := by
      simp only [FStack.additions, Bool.false_eq_true, if_false, if_true, List.nil_append, changes,
        change_addition ptr .write member]
    rw [made]
    exact ⟨rfl, (set' .write t member).2 .read (by simp), (set' .write t member).1⟩
  · have made : changes kq (FStack.additions ptr fd true false) t =
        (true, t.setting kq fd .read (some ptr) (.inr (.inr member))) := by
      simp only [FStack.additions, Bool.false_eq_true, if_false, if_true, List.append_nil, changes,
        change_addition ptr .read member]
    rw [made]
    exact ⟨rfl, (set' .read t member).1, (set' .read t member).2 .write (by simp)⟩
  · have made : changes kq (FStack.additions ptr fd true true) t =
        (true, (t.setting kq fd .read (some ptr) (.inr (.inr member))).setting kq fd .write (some ptr)
          (.inr (.inr member))) := by
      simp only [FStack.additions, if_true, List.cons_append, List.nil_append, changes,
        change_addition ptr .read member]
      rw [change_addition ptr .write (t := t.setting kq fd .read (some ptr) (.inr (.inr member))) member]
    rw [made]
    have both := set' .write (t.setting kq fd .read (some ptr) (.inr (.inr member))) member
    exact ⟨rfl, (both.2 .read (by simp)).trans (set' .read t member).1, both.1⟩

/-- Of a subscription to some direction, the deletion of the other leaves nothing behind. -/
theorem changes_deletions (ptr : UInt64) (r wr : Bool) (wants : r = true ∨ wr = true) (t : Queues) :
    (r = false → (changes kq (FStack.deletions ptr fd r wr) t).2.note kq fd .read = none) ∧
      (wr = false → (changes kq (FStack.deletions ptr fd r wr) t).2.note kq fd .write = none) := by
  cases r <;> cases wr
  · simp at wants
  · exact ⟨fun _ => changes_deletion ptr .read t, fun no => by cases no⟩
  · exact ⟨fun no => (by cases no), fun _ => changes_deletion ptr .write t⟩
  · exact ⟨fun no => (by cases no), fun no => by cases no⟩

end Queues

/-! ## The backend keeps a table -/

namespace FStack

variable {ω : Type} (queues : ω → Queues)

/-- What the kqueue keeps.  Errors and the end of a stream are reported with either note. -/
def table (s : FStack ω) : Table where
  up := s.kq ∈ (queues s.world).queues
  reserved := [s.kq]
  opened := { fd | fd ∈ (queues s.world).opened }
  watch fd :=
    { read := (queues s.world).note s.kq fd .read
      write := (queues s.world).note s.kq fd .write
      error := ((queues s.world).note s.kq fd .read).or ((queues s.world).note s.kq fd .write) }
  proper := (queues s.world).proper
  kept up := by
    rintro fd (_ | ⟨_, none⟩)
    · exact (queues s.world).within up
    · cases none
  quiet fd outside := by
    have absent : ∀ f, f ≠ .user → (queues s.world).note s.kq fd f = none := by
      intro f real
      by_contra some'
      exact outside ((queues s.world).noted s.kq fd f real some')
    rw [absent .read (by simp), absent .write (by simp)]
    rfl

variable {queues} {s : FStack ω} {w : ω} {fd : Int}

theorem table_world (same : queues w = queues s.world) :
    table queues { s with world := w } = table queues s := by
  unfold table
  simp only [same]

theorem table_opening (proper : 0 ≤ fd) (same : queues w = (queues s.world).opening fd proper) :
    table queues { s with world := w } = (table queues s).opening fd proper := by
  ext d <;> simp [table, same, Queues.opening, Table.opening]

theorem table_closing (free : fd ∉ (table queues s).reserved)
    (same : queues w = (queues s.world).closing fd) :
    table queues { s with world := w } = (table queues s).closing fd free := by
  have other : s.kq ≠ fd := fun here => free (here ▸ .head _)
  ext d
  · simp [table, same, Queues.closing, Table.closing, other]
  · simp [table, same, Queues.closing, Table.closing]
  · simp [table, same, Queues.closing, Table.closing, and_comm]
  all_goals
    by_cases here : d = fd
    · subst here
      simp [table, same, Queues.closing, Table.closing, other, Watch.none]
    · simp [table, same, Queues.closing, Table.closing, other, here]

theorem table_touches (touches : Queues.Touches (queues s.world) (queues w) s.kq fd)
    (member : fd ∈ (table queues s).opened) :
    table queues { s with world := w } =
      (table queues s).watching fd ((table queues { s with world := w }).watch fd) member := by
  have elsewhere : ∀ d, d ≠ fd → ∀ f, (queues w).note s.kq d f = (queues s.world).note s.kq d f :=
    fun d other f => touches.elsewhere s.kq d f fun here => other here.2.1
  ext d
  · simp [table, Table.watching, touches.queues]
  · simp [table, Table.watching]
  · simp [table, Table.watching, touches.opened]
  all_goals
    by_cases here : d = fd
    · subst here
      simp [table, Table.watching]
    · simp [table, Table.watching, here, elsewhere d here]

/-- A change of a descriptor's notes, with this pointer. -/
structure Concerns (ptr : UInt64) (fd : Int) (kev : Kevent) : Prop where
  ident : kev.ident = fd
  filter : kev.filter ≠ .user
  udata : kev.udata = ptr

theorem deletions_concern (ptr : UInt64) (fd : Int) (r wr : Bool) :
    ∀ kev ∈ deletions ptr fd r wr, Concerns ptr fd kev := by
  intro kev member
  cases r <;> cases wr <;> simp [deletions] at member
  · rcases member with rfl | rfl <;> exact ⟨rfl, by simp [deletion], rfl⟩
  all_goals
    subst member
    exact ⟨rfl, by simp [deletion], rfl⟩

theorem additions_concern (ptr : UInt64) (fd : Int) (r wr : Bool) :
    ∀ kev ∈ additions ptr fd r wr, Concerns ptr fd kev := by
  intro kev member
  cases r <;> cases wr <;> simp [additions] at member
  · subst member
    exact ⟨rfl, by simp [addition], rfl⟩
  · subst member
    exact ⟨rfl, by simp [addition], rfl⟩
  · rcases member with rfl | rfl <;> exact ⟨rfl, by simp [addition], rfl⟩

/-- Only notes of `fd` have changed, and the new ones have this pointer. -/
def Tuned (queues : ω → Queues) (ptr : UInt64) (fd : Int) (s s' : FStack ω) : Prop :=
  ∃ w, s' = { s with world := w } ∧ Queues.Touches (queues s.world) (queues w) s.kq fd ∧
    ∀ f u, (queues w).note s.kq fd f = some u →
      (queues s.world).note s.kq fd f = some u ∨ u = ptr

theorem Tuned.refl {ptr : UInt64} (s : FStack ω) : Tuned queues ptr fd s s :=
  ⟨s.world, rfl, .refl _ _ _, fun _ _ => .inl⟩

theorem Tuned.trans {ptr : UInt64} {s₁ s₂ : FStack ω} (first : Tuned queues ptr fd s s₁)
    (second : Tuned queues ptr fd s₁ s₂) : Tuned queues ptr fd s s₂ := by
  obtain ⟨w₁, rfl, touches₁, notes₁⟩ := first
  obtain ⟨w₂, rfl, touches₂, notes₂⟩ := second
  refine ⟨w₂, rfl, touches₁.trans touches₂, fun f u noted => ?_⟩
  rcases notes₂ f u noted with noted' | same
  · exact notes₁ f u noted'
  · exact .inr same

variable {F : Ff ω} (kqueue : Kqueue F queues)
include kqueue

/-- What changes about one descriptor do, whether or not they are all made. -/
theorem change_tuned {ptr : UInt64} {kevs : List Kevent} (about : ∀ kev ∈ kevs, Concerns ptr fd kev) :
    Tuned queues ptr fd s (change F kevs s).2 := by
  refine ⟨_, rfl, ?_⟩
  by_cases up : s.kq ∈ (queues s.world).queues
  · obtain ⟨made, -⟩ := kqueue.change s.kq kevs s.world up
    rw [made]
    refine ⟨Queues.changes_touches s.kq kevs (fun kev member =>
      ⟨(about kev member).ident, (about kev member).filter⟩) _, fun f u noted => ?_⟩
    refine (Queues.changes_note kevs _ noted).imp_right ?_
    rintro ⟨kev, member, rfl⟩
    exact (about kev member).udata
  · rw [kqueue.bad s.kq kevs s.world up]
    exact ⟨.refl _ _ _, fun f u noted => .inl noted⟩

/-- A subscription is about its own descriptor, and registers nothing but its own pointer. -/
theorem subscribe_tuned (ptr : UInt64) (r wr : Bool) :
    Tuned queues ptr fd s (subscribe F ptr fd r wr s) := by
  have deleted : Tuned queues ptr fd s
      (if 0 < (deletions ptr fd r wr).length then (change F (deletions ptr fd r wr) s).2 else s) := by
    split
    · exact change_tuned kqueue (deletions_concern ptr fd r wr)
    · exact .refl s
  unfold subscribe
  dsimp only
  generalize (if 0 < (deletions ptr fd r wr).length then (change F (deletions ptr fd r wr) s).2 else s)
    = s₁ at deleted ⊢
  split
  · exact deleted
  have added := deleted.trans (change_tuned kqueue (additions_concern ptr fd r wr))
  split
  · split
    · refine added.trans (change_tuned kqueue fun kev member => ?_)
      obtain ⟨kev', member', rfl⟩ := List.mem_map.mp member
      exact ⟨rfl, (additions_concern ptr fd r wr kev' member').filter, rfl⟩
    · exact added
  · exact added

/-- **A subscription to some direction is exact**, whatever was registered before. -/
theorem subscribe_exact (ptr : UInt64) (r wr : Bool) (up : s.kq ∈ (queues s.world).queues)
    (member : fd ∈ (queues s.world).opened) (wants : r = true ∨ wr = true) :
    ∃ w, subscribe F ptr fd r wr s = { s with world := w } ∧
      (queues w).note s.kq fd .read = (if r then some ptr else none) ∧
      (queues w).note s.kq fd .write = if wr then some ptr else none := by
  -- what is not wanted is gone
  obtain ⟨w₁, deleted, opened₁, queues₁, gone⟩ : ∃ w₁,
      (if 0 < (deletions ptr fd r wr).length then (change F (deletions ptr fd r wr) s).2 else s) =
        { s with world := w₁ } ∧ (queues w₁).opened = (queues s.world).opened ∧
      (queues w₁).queues = (queues s.world).queues ∧
      (r = false → (queues w₁).note s.kq fd .read = none) ∧
      (wr = false → (queues w₁).note s.kq fd .write = none) := by
    split
    · obtain ⟨made, -⟩ := kqueue.change s.kq (deletions ptr fd r wr) s.world up
      have touches := Queues.changes_touches s.kq (deletions ptr fd r wr)
        (fun kev member => ⟨(deletions_concern ptr fd r wr kev member).ident,
          (deletions_concern ptr fd r wr kev member).filter⟩) (queues s.world)
      rw [← made] at touches
      refine ⟨_, rfl, touches.opened, touches.queues, ?_⟩
      rw [made]
      exact Queues.changes_deletions ptr r wr wants _
    next none =>
      refine ⟨s.world, rfl, rfl, rfl, ?_⟩
      cases r <;> cases wr <;> simp [deletions] at none ⊢
  -- what is wanted is added
  have some' : (additions ptr fd r wr).length ≠ 0 := by
    cases r <;> cases wr <;> simp [additions] at wants ⊢
  obtain ⟨made, failed⟩ := kqueue.change s.kq (additions ptr fd r wr) w₁ (by rw [queues₁]; exact up)
  obtain ⟨all, read, write⟩ := Queues.changes_additions (t := queues w₁) s.kq ptr r wr
    (by rw [opened₁]; exact member)
  have done : ¬ (F.change s.kq (additions ptr fd r wr) w₁).1.value < 0 := by
    rw [failed, all]
    simp
  refine ⟨(F.change s.kq (additions ptr fd r wr) w₁).2, ?_, ?_, ?_⟩
  · unfold subscribe
    dsimp only
    rw [deleted, if_neg some']
    exact if_neg done
  · rw [made, read]
    cases r
    · exact gone.1 rfl
    · rfl
  · rw [made, write]
    cases wr
    · exact gone.2 rfl
    · rfl

/-- **After `init` the kqueue is open, and has no notes.** -/
theorem init_starts {config : Option String} {s' : FStack ω}
    (started : init F config s = (.ok (), s')) :
    (table queues s').up ∧ ∀ d f, (queues s'.world).note s'.kq d f = none := by
  unfold init at started
  dsimp only at started
  generalize (match config with | some file => ["-c", file] | none => []) = args at started
  rcases made : F.kqueue (F.init args s.world) with ⟨ret, w⟩
  simp only [made] at started
  split at started
  · cases started
  next proper =>
  cases started
  have created := kqueue.kqueue (F.init args s.world)
  rw [made] at created
  obtain ⟨-, same⟩ := created (Int.not_lt.mp proper)
  simp only [table, same, Queues.creating]
  exact ⟨Finset.mem_insert_self _ _, fun d f => by rw [Function.update_self]⟩

/-- The kqueue is the same, and still has no note of the user filter if it had none. -/
structure Silent (queues : ω → Queues) (s s' : FStack ω) : Prop where
  kq : s'.kq = s.kq
  user : (∀ d, (queues s.world).note s.kq d .user = none) →
    ∀ d, (queues s'.world).note s.kq d .user = none

omit kqueue in
theorem silent_world (same : queues w = queues s.world) : Silent queues s { s with world := w } :=
  ⟨rfl, fun none d => by rw [same]; exact none d⟩

omit kqueue in
theorem Tuned.silent {ptr : UInt64} {s' : FStack ω} (tuned : Tuned queues ptr fd s s') :
    Silent queues s s' := by
  obtain ⟨w, rfl, touches, -⟩ := tuned
  exact ⟨rfl, fun none d =>
    (touches.elsewhere s.kq d .user fun here => here.2.2 rfl).trans (none d)⟩

/-- **The trigger of `signal` is refused**: there is no note to trigger. -/
theorem signal_refused (none : (queues s.world).note s.kq KILL_IDENT .user = none) :
    queues (signal F s).world = queues s.world := by
  by_cases up : s.kq ∈ (queues s.world).queues
  · refine (kqueue.change s.kq _ s.world up).1.trans ?_
    have refused : (queues s.world).change s.kq
        { ident := KILL_IDENT, filter := .user, flags := 0, fflags := NOTE_TRIGGER, udata := 0 } =
          .none := by
      unfold Queues.change
      rw [if_neg (show ¬ (0 : UInt16) &&& EV_DELETE ≠ 0 by decide), if_pos ⟨none, by decide⟩]
    simp only [Queues.changes, refused]
  · exact kqueue.bad s.kq _ s.world up

/-- **A backend on F-Stack keeps a table.** -/
theorem fstack_registers (address : Nat → UInt64) :
    Registers (backend F address) address (table queues) where
  getaddrinfo host port s _ := table_world (kqueue.getaddrinfo host port s.world)
  refused ai s _ failed := table_world (kqueue.refused ai s.world failed)
  socket ai s _ proper := by
    obtain ⟨fresh, same⟩ := kqueue.socket ai s.world proper
    exact ⟨fresh, table_opening proper same⟩
  ioctl fd s _ := table_world (kqueue.ioctl fd s.world)
  connect fd ai s _ := table_world (kqueue.connect fd ai s.world)
  getsockopt fd s _ := table_world (kqueue.getsockopt fd s.world)
  read fd len s _ := table_world (kqueue.read fd len s.world)
  write fd bytes s _ := table_world (kqueue.write fd bytes s.world)
  missing k fd r wr s _ outside := by
    obtain ⟨w, done, touches, -⟩ := subscribe_tuned kqueue (address k) r wr
    refine (congrArg (table queues) done).trans (table_world ?_)
    exact touches.outside outside
  subscribe k fd r wr s up member _ := by
    obtain ⟨w, done, touches, notes⟩ := subscribe_tuned kqueue (address k) r wr
    refine ⟨_, (congrArg (table queues) done).trans (table_touches touches member), fun wants => ?_,
      fun only => ?_⟩
    · obtain ⟨w', done', read, write⟩ := subscribe_exact kqueue (address k) r wr up member wants
      obtain rfl : w' = w := congrArg FStack.world (done'.symm.trans done)
      exact ⟨read, write⟩
    · have read : ∀ d, (queues w).note s.kq fd .read = some d → d = address k := fun d noted =>
        (notes .read d noted).elim (only.read d) id
      have write : ∀ d, (queues w).note s.kq fd .write = some d → d = address k := fun d noted =>
        (notes .write d noted).elim (only.write d) id
      refine ⟨read, write, fun d noted => ?_⟩
      rcases Option.or_eq_some_iff.mp noted with noted' | ⟨-, noted'⟩
      · exact read d noted'
      · exact write d noted'
  clear fd s up member _ := by
    have concern : ∀ kev ∈ deletions 0 fd false false, Concerns 0 fd kev :=
      deletions_concern 0 fd false false
    obtain ⟨w, done, touches, -⟩ := change_tuned kqueue (s := s) concern
    exact ⟨_, (congrArg (table queues) done).trans (table_touches touches member)⟩
  close fd s _ _ free := table_closing free (kqueue.close fd s.world)

end FStack

end Manet.Net
