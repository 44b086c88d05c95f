/-
# Manet.Net.Tape — a network that keeps a record

`traced N` is `N` with a tape next to its world: the bytes `net_read` has returned and
the bytes `net_write` has accepted since the last dial.  It answers as `N` does; what a
program does to the tape is what it has done to the streams.
-/
import Manet.Transport.Endpoint

namespace Manet.Net

open Manet.Reactor Manet.Transport

set_option autoImplicit false

structure Tape where
  received : List UInt8 := []
  accepted : List UInt8 := []

variable {ω : Type} (N : Backend ω)

def traced : Backend (ω × Tape) where
  getaddrinfo host port w :=
    let (addrs, w') := N.getaddrinfo host port w.1
    (addrs, w', {})
  socket ai w :=
    let (ret, w') := N.socket ai w.1
    (ret, w', w.2)
  ioctl fd w :=
    let (ret, w') := N.ioctl fd w.1
    (ret, w', w.2)
  connect fd ai w :=
    let (ret, w') := N.connect fd ai w.1
    (ret, w', w.2)
  close fd w := (N.close fd w.1, w.2)
  getsockopt fd w :=
    let (ret, w') := N.getsockopt fd w.1
    (ret, w', w.2)
  subscribe cookie fd wantRead wantWrite w := (N.subscribe cookie fd wantRead wantWrite w.1, w.2)
  clear fd w := (N.clear fd w.1, w.2)
  read fd len w :=
    match N.read fd len w.1 with
    | (.ok bytes, w') => (.ok bytes, w', { w.2 with received := w.2.received ++ bytes })
    | (.error errno, w') => (.error errno, w', w.2)
  write fd bytes w :=
    match N.write fd bytes w.1 with
    | (.ok taken, w') =>
        (.ok taken, w', { w.2 with accepted := w.2.accepted ++ bytes.take taken })
    | (.error errno, w') => (.error errno, w', w.2)

/-- A dial begins a new tape. -/
theorem dial_tape (host : String) (port : UInt16) (w : ω × Tape) :
    (dial (traced N) host port w).2.1.2 = {} := by
  have loop : ∀ (addrs : List AddrInfo) (result : DialResult) (w : ω × Tape) (calls : List NetCall),
      (dialLoop (traced N) addrs result w calls).2.1.2 = w.2 := by
    intro addrs
    induction addrs with
    | nil => intros; rfl
    | cons ai rest ih =>
        intro result w calls
        simp only [dialLoop]
        split
        · exact ih _ _ _
        split
        · exact ih _ _ _
        split
        · rfl
        split
        · rfl
        · exact ih _ _ _
  have resolved : (traced N).getaddrinfo host port w =
      ((N.getaddrinfo host port w.1).1, (N.getaddrinfo host port w.1).2, {}) := rfl
  unfold dial
  rw [resolved]
  rcases (N.getaddrinfo host port w.1).1 with _ | addrs
  · rfl
  · exact loop addrs _ _ _

variable {N}

theorem traced_bounded (bounded : Bounded N) : Bounded (traced N) where
  read fd len w bytes answered := by
    simp only [traced] at answered
    rcases read : N.read fd len w.1 with ⟨errno | got, w'⟩ <;> rw [read] at answered <;> cases answered
    exact bounded.read fd len w.1 bytes (by rw [read])
  write fd bytes w taken answered := by
    simp only [traced] at answered
    rcases wrote : N.write fd bytes w.1 with ⟨errno | took, w'⟩ <;> rw [wrote] at answered <;>
      cases answered
    exact bounded.write fd bytes w.1 taken (by rw [wrote])

/-- The plain transport appends to RX what the tape records as received. -/
theorem plainRead_tape (bounded : Bounded N) {fuel : Nat} {fd fd' : Int} {rx rx' : Buffer RX_CAP}
    {w w' : ω × Tape} {status : Status} (valid : rx.Valid)
    (answered : plainRead (traced N) fuel fd rx w = some (status, fd', rx', w')) :
    ∃ bytes, bytes.length ≤ rx.wsize ∧ rx' = rx.write bytes ∧
      w'.2 = { w.2 with received := w.2.received ++ bytes } := by
  induction fuel generalizing w with
  | zero => cases answered
  | succ fuel ih =>
      unfold plainRead at answered
      rcases read : N.read fd rx.wsize w.1 with ⟨errno | bytes, w₁⟩
      · have answer : (traced N).read fd rx.wsize w = (.error errno, w₁, w.2) := by
          simp only [traced, read]
        have nothing : ∃ bytes : List UInt8, bytes.length ≤ rx.wsize ∧ rx = rx.write bytes ∧
            w.2 = { w.2 with received := w.2.received ++ bytes } :=
          ⟨[], Nat.zero_le _, (Buffer.write_nil rx_small valid).symm, by rw [List.append_nil]⟩
        rw [answer] at answered
        simp only at answered
        split at answered
        · cases answered
          exact nothing
        split at answered
        · exact ih (w := (w₁, w.2)) answered
        · cases answered
          exact nothing
      · have answer : (traced N).read fd rx.wsize w =
            (.ok bytes, w₁, { w.2 with received := w.2.received ++ bytes }) := by
          simp only [traced, read]
        have fits := bounded.read fd rx.wsize w.1 bytes (by rw [read])
        rw [answer] at answered
        simp only at answered
        split at answered
        · cases answered
          exact ⟨bytes, fits, rfl, rfl⟩
        · rename_i none
          cases answered
          have empty : bytes = [] := List.length_eq_zero_iff.mp (by omega)
          subst empty
          exact ⟨[], Nat.zero_le _, (Buffer.write_nil rx_small valid).symm, rfl⟩

/-- The plain transport consumes from TX what the tape records as accepted. -/
theorem plainWrite_tape (bounded : Bounded N) {fuel : Nat} {fd fd' : Int} {tx tx' : Buffer TX_CAP}
    {w w' : ω × Tape} {status : Status} (valid : tx.Valid)
    (answered : plainWrite (traced N) fuel fd tx w = some (status, fd', tx', w')) :
    ∃ n, n ≤ tx.rsize ∧ tx' = tx.incRpos n ∧
      w'.2 = { w.2 with accepted := w.2.accepted ++ tx.rbuf.take n } := by
  induction fuel generalizing w with
  | zero => cases answered
  | succ fuel ih =>
      unfold plainWrite at answered
      rcases wrote : N.write fd tx.rbuf w.1 with ⟨errno | taken, w₁⟩
      · have answer : (traced N).write fd tx.rbuf w = (.error errno, w₁, w.2) := by
          simp only [traced, wrote]
        have nothing : ∃ n, n ≤ tx.rsize ∧ tx = tx.incRpos n ∧
            w.2 = { w.2 with accepted := w.2.accepted ++ tx.rbuf.take n } :=
          ⟨0, Nat.zero_le _, (Buffer.incRpos_zero tx_small valid).symm, by simp⟩
        rw [answer] at answered
        simp only at answered
        split at answered
        · cases answered
          exact nothing
        split at answered
        · exact ih (w := (w₁, w.2)) answered
        · cases answered
          exact nothing
      · have answer : (traced N).write fd tx.rbuf w =
            (.ok taken, w₁, { w.2 with accepted := w.2.accepted ++ tx.rbuf.take taken }) := by
          simp only [traced, wrote]
        obtain ⟨inside, exact'⟩ :=
          intOfSsize_accepted bounded valid fd w.1 taken (by rw [wrote])
        rw [answer] at answered
        simp only [exact'] at answered
        rw [if_pos (Int.natCast_nonneg taken)] at answered
        cases answered
        exact ⟨taken, inside, rfl, rfl⟩

end Manet.Net
