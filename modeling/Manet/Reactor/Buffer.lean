/-
# Manet.Reactor.Buffer — the linear IO buffer and the windows onto it

`Buffer<CAP>` (`reactor/buffer.hpp`) is an array with a read and a write
position.  It checks nothing: `rbuf` and `wbuf` are the subspans the positions
delimit, `inc_rpos` and `inc_wpos` add to a `size_t`.  The model keeps the
positions as `size_t` values (sums and differences modulo `2 ^ 64`) and the
array as a memory, so a position past the end or past the other one can be
written down; `Buffer.Valid` is what rules it out.

On valid buffers the positions are a queue of bytes: `rbuf_write` appends to the
unread bytes, `rbuf_incRpos` drops from their front, and both keep `Valid` when
the caller stays within the window it was offered.
-/
import Mathlib.Algebra.Group.Nat.Defs
import Mathlib.Data.List.Basic

namespace Manet.Reactor

set_option autoImplicit false

/-- `size_t` addition. -/
def sizeAdd (a b : Nat) : Nat := (a + b) % 2 ^ 64

/-- `size_t` subtraction, of two `size_t` values. -/
def sizeSub (a b : Nat) : Nat := if b ≤ a then a - b else a + 2 ^ 64 - b

theorem sizeAdd_of_lt {a b : Nat} (fits : a + b < 2 ^ 64) : sizeAdd a b = a + b := by
  unfold sizeAdd; omega

theorem sizeSub_of_le {a b : Nat} (le : b ≤ a) : sizeSub a b = a - b := if_pos le

structure Buffer (cap : Nat) where
  buf : Nat → UInt8
  rpos : Nat
  wpos : Nat

namespace Buffer

variable {cap : Nat}

def init : Buffer cap := ⟨fun _ => 0, 0, 0⟩

/-- `rbuf().size()` -/
def rsize (b : Buffer cap) : Nat := sizeSub b.wpos b.rpos

/-- `wbuf().size()` -/
def wsize (b : Buffer cap) : Nat := sizeSub cap b.wpos

/-- The unread bytes. -/
def rbuf (b : Buffer cap) : List UInt8 := (List.range b.rsize).map fun i => b.buf (b.rpos + i)

/-- What the array holds behind the unread bytes. -/
def behind (b : Buffer cap) (i : Nat) : UInt8 := b.buf (b.wpos + i)

def clear (b : Buffer cap) : Buffer cap := { b with rpos := 0, wpos := 0 }

def incWpos (b : Buffer cap) (len : Nat) : Buffer cap := { b with wpos := sizeAdd b.wpos len }

def incRpos (b : Buffer cap) (len : Nat) : Buffer cap :=
  let rpos := sizeAdd b.rpos len
  if rpos = b.wpos then { b with rpos := 0, wpos := 0 } else { b with rpos := rpos }

def full (b : Buffer cap) : Bool := cap = b.wpos

/-- Bytes copied to `wbuf().data()`. -/
def store (b : Buffer cap) (bytes : List UInt8) : Buffer cap :=
  { b with buf := fun i =>
      if b.wpos ≤ i ∧ i < b.wpos + bytes.length then bytes.getD (i - b.wpos) 0 else b.buf i }

/-- Bytes copied to `wbuf().data()` and committed with `wrote`. -/
def write (b : Buffer cap) (bytes : List UInt8) : Buffer cap := (b.store bytes).incWpos bytes.length

/-- The representation invariant: the read position is behind the write position,
that one is inside the array, and an empty buffer is rewound. -/
structure Valid (b : Buffer cap) : Prop where
  ordered : b.rpos ≤ b.wpos
  bounded : b.wpos ≤ cap
  rewound : b.rpos = b.wpos → b.rpos = 0

@[simp] theorem rbuf_length (b : Buffer cap) : b.rbuf.length = b.rsize := by simp [rbuf]

theorem rbuf_eq_nil_iff (b : Buffer cap) : b.rbuf = [] ↔ b.rsize = 0 := by
  rw [← List.length_eq_zero_iff, rbuf_length]

/-- What stands in `b'` behind the unread bytes of `b`. -/
def appended (b b' : Buffer cap) : List UInt8 := b'.rbuf.drop b.rsize

@[simp] theorem appended_self (b : Buffer cap) : b.appended b = [] := by
  rw [appended, ← rbuf_length, List.drop_length]

theorem append_appended {b b' : Buffer cap} (grown : b.rbuf <+: b'.rbuf) :
    b.rbuf ++ b.appended b' = b'.rbuf := by
  obtain ⟨more, grown⟩ := grown
  rw [appended, ← grown, ← rbuf_length, List.drop_left]

/-- What stood in `b` before the unread bytes of `b'`. -/
def removed (b b' : Buffer cap) : List UInt8 := b.rbuf.take (b.rsize - b'.rsize)

theorem removed_append {b b' : Buffer cap} (dropped : b'.rbuf <:+ b.rbuf) :
    b.removed b' ++ b'.rbuf = b.rbuf := by
  obtain ⟨gone, dropped⟩ := dropped
  have size : b.rsize - b'.rsize = gone.length := by
    rw [← rbuf_length b, ← rbuf_length b', ← dropped, List.length_append, Nat.add_sub_cancel]
  rw [removed, size, ← dropped, List.take_left]

@[simp] theorem rsize_clear (b : Buffer cap) : b.clear.rsize = 0 := by
  simp [clear, rsize, sizeSub]

theorem clear_valid (b : Buffer cap) : b.clear.Valid :=
  ⟨Nat.le_refl 0, Nat.zero_le cap, fun _ => rfl⟩

theorem init_valid : (init : Buffer cap).Valid :=
  ⟨Nat.le_refl 0, Nat.zero_le cap, fun _ => rfl⟩

/-- Storing moves no position. -/
theorem store_valid {b : Buffer cap} (valid : b.Valid) (bytes : List UInt8) :
    (b.store bytes).Valid :=
  ⟨valid.ordered, valid.bounded, valid.rewound⟩

section Windows

variable {b : Buffer cap} (valid : b.Valid)
include valid

theorem rsize_eq : b.rsize = b.wpos - b.rpos := sizeSub_of_le valid.ordered

theorem wsize_eq : b.wsize = cap - b.wpos := sizeSub_of_le valid.bounded

/-- A window that is not full has room. -/
theorem wsize_pos (notFull : b.full = false) : 0 < b.wsize := by
  have ne : cap ≠ b.wpos := by simpa [full] using notFull
  have := valid.bounded
  rw [wsize_eq valid]
  omega

end Windows

/-- What is stored is not read before it is committed. -/
theorem rbuf_store {b : Buffer cap} (valid : b.Valid) (bytes : List UInt8) :
    (b.store bytes).rbuf = b.rbuf := by
  refine List.map_congr_left fun i inside => ?_
  have behind : i < b.rsize := List.mem_range.mp inside
  rw [rsize_eq valid] at behind
  have free : ¬ (b.wpos ≤ b.rpos + i ∧ b.rpos + i < b.wpos + bytes.length) := by omega
  exact if_neg free

section Advancing

variable {b : Buffer cap} (small : cap < 2 ^ 64) (valid : b.Valid)
include small valid

/-- Committing bytes within `wbuf` keeps the buffer valid. -/
theorem incWpos_valid {len : Nat} (fits : len ≤ b.wsize) : (b.incWpos len).Valid := by
  rw [wsize_eq valid] at fits
  obtain ⟨ordered, bounded, rewound⟩ := valid
  have sum : sizeAdd b.wpos len = b.wpos + len := sizeAdd_of_lt (by omega)
  refine ⟨?_, ?_, ?_⟩ <;> simp only [incWpos, sum]
  · omega
  · omega
  · intro same
    exact rewound (by omega)

theorem wpos_le_incWpos {len : Nat} (fits : len ≤ b.wsize) : b.wpos ≤ (b.incWpos len).wpos := by
  rw [wsize_eq valid] at fits
  have := valid.bounded
  have sum : sizeAdd b.wpos len = b.wpos + len := sizeAdd_of_lt (by omega)
  rw [incWpos, sum]
  exact Nat.le_add_right _ _

/-- A writer that stays within `wbuf` keeps the buffer valid. -/
theorem write_valid {bytes : List UInt8} (fits : bytes.length ≤ b.wsize) :
    (b.write bytes).Valid :=
  incWpos_valid small (store_valid valid bytes) fits

/-- Committing bytes leaves the unread ones in front. -/
theorem rbuf_incWpos {len : Nat} (fits : len ≤ b.wsize) : b.rbuf <+: (b.incWpos len).rbuf := by
  have after := incWpos_valid small valid fits
  rw [wsize_eq valid] at fits
  have := valid.ordered
  have := valid.bounded
  have sum : sizeAdd b.wpos len = b.wpos + len := sizeAdd_of_lt (by omega)
  have size : (b.incWpos len).rsize = b.rsize + len := by
    rw [rsize_eq after, rsize_eq valid]
    simp only [incWpos, sum]
    omega
  refine ⟨(List.range len).map fun i => b.buf (b.rpos + (b.rsize + i)), ?_⟩
  unfold rbuf
  rw [size, List.range_add, List.map_append, List.map_map]
  rfl

/-- A writer appends to the unread bytes. -/
theorem rbuf_write {bytes : List UInt8} (fits : bytes.length ≤ b.wsize) :
    (b.write bytes).rbuf = b.rbuf ++ bytes := by
  have after := write_valid small valid fits
  have size : (b.write bytes).rsize = b.rsize + bytes.length := by
    rw [rsize_eq after, rsize_eq valid]
    rw [wsize_eq valid] at fits
    have := valid.ordered
    have := valid.bounded
    have sum : sizeAdd b.wpos bytes.length = b.wpos + bytes.length := sizeAdd_of_lt (by omega)
    simp only [write, store, incWpos, sum]
    omega
  have offset : b.rpos + b.rsize = b.wpos := by
    rw [rsize_eq valid]
    have := valid.ordered
    omega
  apply List.ext_getElem
  · simp [size]
  · intro i hi _
    simp only [rbuf_length, size] at hi
    by_cases old : i < b.rsize
    · have below : ¬ b.wpos ≤ b.rpos + i := by omega
      rw [List.getElem_append_left (by simpa using old)]
      simp [rbuf, write, store, incWpos, below]
    · rw [List.getElem_append_right (by simp; omega)]
      have above : b.wpos ≤ b.rpos + i := by omega
      have inside : b.rpos + i < b.wpos + bytes.length := by omega
      have shift : b.rpos + i - b.wpos = i - b.rsize := by omega
      simp [rbuf, write, store, incWpos, above, inside, shift,
        List.getD_eq_getElem?_getD, List.getElem?_eq_getElem (show i - b.rsize < bytes.length by omega)]

/-- A reader that stays within `rbuf` keeps the buffer valid. -/
theorem incRpos_valid {len : Nat} (fits : len ≤ b.rsize) : (b.incRpos len).Valid := by
  rw [rsize_eq valid] at fits
  obtain ⟨ordered, bounded, rewound⟩ := valid
  have sum : sizeAdd b.rpos len = b.rpos + len := sizeAdd_of_lt (by omega)
  simp only [incRpos, sum]
  split
  · exact ⟨Nat.le_refl 0, Nat.zero_le cap, fun _ => rfl⟩
  · rename_i apart
    exact ⟨by simp only; omega, bounded, fun same => absurd same apart⟩

/-- A reader drops from the front of the unread bytes. -/
theorem rbuf_incRpos {len : Nat} (fits : len ≤ b.rsize) :
    (b.incRpos len).rbuf = b.rbuf.drop len := by
  have after := incRpos_valid small valid fits
  have before := rsize_eq valid
  have := valid.ordered
  have := valid.bounded
  have sum : sizeAdd b.rpos len = b.rpos + len := sizeAdd_of_lt (by omega)
  by_cases drained : b.rpos + len = b.wpos
  · have size : (b.incRpos len).rsize = 0 := by simp [incRpos, sum, drained, rsize, sizeSub]
    rw [(rbuf_eq_nil_iff _).mpr size, List.drop_of_length_le (by simp; omega)]
  · have shape : b.incRpos len = { b with rpos := b.rpos + len } := by
      simp [incRpos, sum, drained]
    have size : (b.incRpos len).rsize = b.rsize - len := by
      rw [rsize_eq after, before, shape]
      simp only
      omega
    apply List.ext_getElem
    · simp [size]
    · intro i _ _
      simp [rbuf, shape, Nat.add_assoc]

theorem appended_write {bytes : List UInt8} (fits : bytes.length ≤ b.wsize) :
    b.appended (b.write bytes) = bytes := by
  rw [appended, rbuf_write small valid fits, ← rbuf_length, List.drop_left]

theorem wsize_write {bytes : List UInt8} (fits : bytes.length ≤ b.wsize) :
    (b.write bytes).wsize = b.wsize - bytes.length := by
  have after := write_valid small valid fits
  have := valid.bounded
  rw [wsize_eq after, wsize_eq valid]
  rw [wsize_eq valid] at fits
  have sum : sizeAdd b.wpos bytes.length = b.wpos + bytes.length := sizeAdd_of_lt (by omega)
  simp only [write, store, incWpos, sum]
  omega

/-- Reading never takes room away. -/
theorem wsize_incRpos {len : Nat} (fits : len ≤ b.rsize) : b.wsize ≤ (b.incRpos len).wsize := by
  rw [wsize_eq (incRpos_valid small valid fits), wsize_eq valid]
  simp only [incRpos]
  split
  · exact Nat.sub_le_sub_left (Nat.zero_le _) cap
  · exact Nat.le_refl _

theorem rsize_incRpos {len : Nat} (fits : len ≤ b.rsize) :
    (b.incRpos len).rsize = b.rsize - len := by
  rw [← rbuf_length, rbuf_incRpos small valid fits, List.length_drop, rbuf_length]

theorem incRpos_zero : b.incRpos 0 = b := by
  have := valid.ordered
  have := valid.bounded
  have sum : sizeAdd b.rpos 0 = b.rpos := sizeAdd_of_lt (by omega)
  simp only [incRpos, sum]
  split
  · rename_i drained
    have start : b.rpos = 0 := valid.rewound drained
    have end' : b.wpos = 0 := drained.symm.trans start
    cases b
    simp_all
  · rfl

theorem write_nil : b.write [] = b := by
  have := valid.bounded
  have sum : sizeAdd b.wpos 0 = b.wpos := sizeAdd_of_lt (by omega)
  have blank : ∀ i, ¬ (b.wpos ≤ i ∧ i < b.wpos + 0) := by omega
  simp only [write, store, incWpos, List.length_nil, sum, blank, if_false]

end Advancing

end Buffer

/-! ## The windows handed to transports and handlers (`reactor/io.hpp`) -/

def RX_CAP : Nat := 2 ^ 20

def TX_CAP : Nat := 2 ^ 20

theorem rx_small : RX_CAP < 2 ^ 64 := by decide

theorem tx_small : TX_CAP < 2 ^ 64 := by decide

/-- The read end of the RX buffer and the write end of the TX buffer. -/
structure Io where
  rx : Buffer RX_CAP
  tx : Buffer TX_CAP

namespace Io

structure Valid (io : Io) : Prop where
  rx : io.rx.Valid
  tx : io.tx.Valid

/-- What a holder of the windows can do while it stays within them: consume unread
bytes, store to the free ones, commit free ones. -/
inductive Uses : Io → Io → Prop where
  | done (io : Io) : Uses io io
  | read {io io' : Io} (n : Nat) (inside : n ≤ io.rx.rsize)
      (later : Uses { io with rx := io.rx.incRpos n } io') : Uses io io'
  | store {io io' : Io} (bytes : List UInt8) (inside : bytes.length ≤ io.tx.wsize)
      (later : Uses { io with tx := io.tx.store bytes } io') : Uses io io'
  | wrote {io io' : Io} (n : Nat) (inside : n ≤ io.tx.wsize)
      (later : Uses { io with tx := io.tx.incWpos n } io') : Uses io io'

theorem Uses.trans {io io₁ io₂ : Io} (first : Uses io io₁) (second : Uses io₁ io₂) : Uses io io₂ := by
  induction first with
  | done => exact second
  | read n inside _ ih => exact .read n inside (ih second)
  | store bytes inside _ ih => exact .store bytes inside (ih second)
  | wrote n inside _ ih => exact .wrote n inside (ih second)

theorem uses_write {io : Io} {bytes : List UInt8} (fits : bytes.length ≤ io.tx.wsize) :
    Uses io { io with tx := io.tx.write bytes } :=
  .store bytes fits (.wrote bytes.length fits (.done _))

theorem Uses.valid {io io' : Io} (uses : Uses io io') (valid : io.Valid) : io'.Valid := by
  induction uses with
  | done => exact valid
  | read n inside _ ih => exact ih ⟨Buffer.incRpos_valid rx_small valid.rx inside, valid.tx⟩
  | store bytes _ _ ih => exact ih ⟨valid.rx, Buffer.store_valid valid.tx bytes⟩
  | wrote n inside _ ih => exact ih ⟨valid.rx, Buffer.incWpos_valid tx_small valid.tx inside⟩

/-- Whatever is done with the windows, the unread bytes of TX stay where they are. -/
theorem Uses.appends {io io' : Io} (uses : Uses io io') (valid : io.Valid) :
    io'.tx.rpos = io.tx.rpos ∧ io.tx.rbuf <+: io'.tx.rbuf := by
  induction uses with
  | done => exact ⟨rfl, List.prefix_rfl⟩
  | read n inside _ ih => exact ih ⟨Buffer.incRpos_valid rx_small valid.rx inside, valid.tx⟩
  | @store io _ bytes _ _ ih =>
      have stored := ih ⟨valid.rx, Buffer.store_valid valid.tx bytes⟩
      rwa [Buffer.rbuf_store valid.tx] at stored
  | @wrote io _ n inside _ ih =>
      obtain ⟨start, grown⟩ := ih ⟨valid.rx, Buffer.incWpos_valid tx_small valid.tx inside⟩
      exact ⟨start, (Buffer.rbuf_incWpos tx_small valid.tx inside).trans grown⟩

/-- Whatever is done with the windows, what is left unread of RX is its end. -/
theorem Uses.consumes {io io' : Io} (uses : Uses io io') (valid : io.Valid) :
    io'.rx.rbuf <:+ io.rx.rbuf := by
  induction uses with
  | done => exact List.suffix_rfl
  | read n inside _ ih =>
      have rest := ih ⟨Buffer.incRpos_valid rx_small valid.rx inside, valid.tx⟩
      rw [Buffer.rbuf_incRpos rx_small valid.rx inside] at rest
      exact rest.trans (List.drop_suffix n _)
  | store bytes _ _ ih => exact ih ⟨valid.rx, Buffer.store_valid valid.tx bytes⟩
  | wrote n inside _ ih => exact ih ⟨valid.rx, Buffer.incWpos_valid tx_small valid.tx inside⟩

end Io

end Manet.Reactor
