/-
# Manet.Transport.Endpoint — transports, and the plain one

`Layer ω` is `transport/concepts.hpp`: how an endpoint is made on a
descriptor, its four IO steps, and its destruction.  A transport that does not
declare a handshake or a shutdown has `none` there.  A step may also fail to
return at all (`none` as its answer): a loop in it that never ends, or undefined
behaviour.

`Plain` (`transport/plain.hpp`) retries interrupted system calls; `fuel` bounds
the retries, and running out of it is such a step that never returned.
-/
import Manet.Net.Dial
import Manet.Reactor.Buffer

namespace Manet.Transport

open Manet.Net Manet.Reactor

set_option autoImplicit false

inductive Status where
  | ok
  | close
  | error
  | wantRead
  | wantWrite
  deriving DecidableEq, Repr

structure Layer (ω : Type) where
  Config : Type
  Endpoint : Type
  /-- The default-initialised `Endpoint` member of a connection. -/
  blank : Endpoint
  init : Int → Config → ω → Option Endpoint × ω
  handshakeStep : Option (Endpoint → ω → Option (Status × Endpoint × ω))
  read : Endpoint → Buffer RX_CAP → ω → Option (Status × Endpoint × Buffer RX_CAP × ω)
  write : Endpoint → Buffer TX_CAP → ω → Option (Status × Endpoint × Buffer TX_CAP × ω)
  shutdownStep : Option (Endpoint → ω → Option (Status × Endpoint × ω))
  destroy : Endpoint → ω → Endpoint × ω

/-- A write that asks for an event leaves something to write. -/
def Layer.Keeps {ω : Type} (T : Layer ω) : Prop :=
  ∀ e tx w status e' tx' w', T.write e tx w = some (status, e', tx', w') →
    status = .wantRead ∨ status = .wantWrite → tx.rsize ≠ 0 → tx'.rsize ≠ 0

/-- A read only appends to the buffer it is given. -/
def Layer.Fills {ω : Type} (T : Layer ω) : Prop :=
  ∀ {e rx w status e' rx' w'}, T.read e rx w = some (status, e', rx', w') → rx.Valid →
    rx'.rpos = rx.rpos ∧ rx.wpos ≤ rx'.wpos

/-- A read appends what it received, and nothing else. -/
def Layer.Appends {ω : Type} (T : Layer ω) : Prop :=
  ∀ {e rx w status e' rx' w'}, T.read e rx w = some (status, e', rx', w') → rx.Valid →
    ∃ bytes, bytes.length ≤ rx.wsize ∧ rx' = rx.write bytes

/-- A write only consumes from the window it is given. -/
def Layer.Drains {ω : Type} (T : Layer ω) : Prop :=
  ∀ {e tx w status e' tx' w'}, T.write e tx w = some (status, e', tx', w') → tx.Valid →
    ∃ n, n ≤ tx.rsize ∧ tx' = tx.incRpos n

/-- Reads and writes keep the buffers valid. -/
structure Layer.Within {ω : Type} (T : Layer ω) : Prop where
  read : ∀ {e rx w status e' rx' w'}, T.read e rx w = some (status, e', rx', w') →
    rx.Valid → rx'.Valid
  write : ∀ {e tx w status e' tx' w'}, T.write e tx w = some (status, e', tx', w') →
    tx.Valid → tx'.Valid

/-- Every call returns. -/
structure Layer.Answers {ω : Type} (T : Layer ω) : Prop where
  handshakeStep : ∀ f, T.handshakeStep = some f → ∀ e w, f e w ≠ none
  read : ∀ e rx w, T.read e rx w ≠ none
  write : ∀ e tx w, T.write e tx w ≠ none
  shutdownStep : ∀ f, T.shutdownStep = some f → ∀ e w, f e w ≠ none

/-! ## `Plain` -/

section Plain

variable {ω : Type} (N : Backend ω)

/-- The conversion of an `ssize_t` to the `int` that `Plain::write` keeps. -/
def intOfSsize (n : Int) : Int := n.bmod (2 ^ 32)

def plainRead : Nat → Int → Buffer RX_CAP → ω → Option (Status × Int × Buffer RX_CAP × ω)
  | 0, _, _, _ => none
  | fuel + 1, fd, rx, w =>
      match N.read fd rx.wsize w with
      | (.ok bytes, w) =>
          if 0 < bytes.length then some (.ok, fd, rx.write bytes, w) else some (.close, fd, rx, w)
      | (.error errno, w) =>
          if errno = .eagain ∨ errno = .ewouldblock then some (.wantRead, fd, rx, w)
          else if errno = .eintr then plainRead fuel fd rx w
          else some (.error, fd, rx, w)

def plainWrite : Nat → Int → Buffer TX_CAP → ω → Option (Status × Int × Buffer TX_CAP × ω)
  | 0, _, _, _ => none
  | fuel + 1, fd, tx, w =>
      match N.write fd tx.rbuf w with
      | (.ok taken, w) =>
          let len := intOfSsize taken
          -- a count that does not fit an `int` reads as a failure with a stale `errno`
          if 0 ≤ len then some (.ok, fd, tx.incRpos len.toNat, w) else some (.error, fd, tx, w)
      | (.error errno, w) =>
          if errno = .eagain ∨ errno = .ewouldblock then some (.wantWrite, fd, tx, w)
          else if errno = .eintr then plainWrite fuel fd tx w
          else some (.error, fd, tx, w)

/-- The endpoint is its descriptor. -/
def plain (fuel : Nat) : Layer ω where
  Config := Unit
  Endpoint := Int
  blank := -1
  init fd _ w := (some fd, w)
  handshakeStep := none
  read := plainRead N fuel
  write := plainWrite N fuel
  shutdownStep := none
  destroy fd w := (fd, w)

/-- `net_read` and `net_write` stay within what they are offered. -/
structure Bounded : Prop where
  read : ∀ fd len w bytes, (N.read fd len w).1 = .ok bytes → bytes.length ≤ len
  write : ∀ fd bytes w taken, (N.write fd bytes w).1 = .ok taken → taken ≤ bytes.length

theorem plainWrite_asks {fuel : Nat} {fd fd' : Int} {tx tx' : Buffer TX_CAP} {w w' : ω}
    {status : Status} (answered : plainWrite N fuel fd tx w = some (status, fd', tx', w'))
    (asks : status = .wantRead ∨ status = .wantWrite) : tx' = tx := by
  induction fuel generalizing w with
  | zero => cases answered
  | succ fuel ih =>
      unfold plainWrite at answered
      rcases answer : N.write fd tx.rbuf w with ⟨errno | taken, w₁⟩
      · simp only [answer] at answered
        split at answered
        · simp only [Option.some.injEq, Prod.mk.injEq] at answered
          exact answered.2.2.1.symm
        split at answered
        · exact ih answered
        · simp only [Option.some.injEq, Prod.mk.injEq] at answered
          simp [← answered.1] at asks
      · simp only [answer] at answered
        split at answered <;> simp only [Option.some.injEq, Prod.mk.injEq] at answered <;>
          simp [← answered.1] at asks

theorem plain_keeps (fuel : Nat) : (plain N fuel).Keeps := by
  intro e tx w status e' tx' w' answered asks unsent
  rwa [plainWrite_asks N answered asks]

/-! Within its bounds, the plain transport appends what was received and drops what
was accepted, and nothing else. -/

section Bounded

variable {N} (bounded : Bounded N)
include bounded

theorem intOfSsize_accepted {tx : Buffer TX_CAP} (valid : tx.Valid) (fd : Int) (w : ω) (taken : Nat)
    (answer : (N.write fd tx.rbuf w).1 = .ok taken) :
    taken ≤ tx.rsize ∧ intOfSsize taken = taken := by
  have le := bounded.write fd tx.rbuf w taken answer
  rw [Buffer.rbuf_length] at le
  refine ⟨le, ?_⟩
  have size := Buffer.rsize_eq valid
  have cap := valid.bounded
  unfold TX_CAP at cap
  exact Int.bmod_eq_of_le_mul_two (by omega) (by omega)

theorem plainRead_cases {fuel : Nat} {fd fd' : Int} {rx rx' : Buffer RX_CAP} {w w' : ω}
    {status : Status} (answered : plainRead N fuel fd rx w = some (status, fd', rx', w')) :
    rx' = rx ∧ status ≠ .ok ∨
      ∃ bytes, 0 < bytes.length ∧ bytes.length ≤ rx.wsize ∧ rx' = rx.write bytes ∧ status = .ok := by
  induction fuel generalizing w with
  | zero => cases answered
  | succ fuel ih =>
      unfold plainRead at answered
      rcases answer : N.read fd rx.wsize w with ⟨errno | bytes, w₁⟩
      · simp only [answer] at answered
        split at answered
        · cases answered
          exact .inl ⟨rfl, by simp⟩
        split at answered
        · exact ih answered
        · cases answered
          exact .inl ⟨rfl, by simp⟩
      · simp only [answer] at answered
        split at answered
        · rename_i some'
          cases answered
          exact .inr ⟨bytes, some', bounded.read fd rx.wsize w bytes (by rw [answer]), rfl, rfl⟩
        · cases answered
          exact .inl ⟨rfl, by simp⟩

theorem plainWrite_cases {fuel : Nat} {fd fd' : Int} {tx tx' : Buffer TX_CAP} {w w' : ω}
    {status : Status} (valid : tx.Valid)
    (answered : plainWrite N fuel fd tx w = some (status, fd', tx', w')) :
    tx' = tx ∧ status ≠ .ok ∨ ∃ taken, taken ≤ tx.rsize ∧ tx' = tx.incRpos taken ∧ status = .ok := by
  induction fuel generalizing w with
  | zero => cases answered
  | succ fuel ih =>
      unfold plainWrite at answered
      rcases answer : N.write fd tx.rbuf w with ⟨errno | taken, w₁⟩
      · simp only [answer] at answered
        split at answered
        · cases answered
          exact .inl ⟨rfl, by simp⟩
        split at answered
        · exact ih answered
        · cases answered
          exact .inl ⟨rfl, by simp⟩
      · obtain ⟨inside, exact'⟩ := intOfSsize_accepted bounded valid fd w taken (by rw [answer])
        simp only [answer, exact'] at answered
        rw [if_pos (Int.natCast_nonneg taken)] at answered
        cases answered
        exact .inr ⟨taken, inside, rfl, rfl⟩

theorem plain_fills (fuel : Nat) : (plain N fuel).Fills := by
  intro e rx w status e' rx' w' answered valid
  rcases plainRead_cases bounded answered with ⟨rfl, -⟩ | ⟨bytes, -, fits, rfl, -⟩
  · exact ⟨rfl, Nat.le_refl _⟩
  · exact ⟨rfl, Buffer.wpos_le_incWpos rx_small (Buffer.store_valid valid bytes) fits⟩

theorem plain_appends (fuel : Nat) : (plain N fuel).Appends := by
  intro e rx w status e' rx' w' answered valid
  rcases plainRead_cases bounded answered with ⟨rfl, -⟩ | ⟨bytes, -, fits, wrote, -⟩
  · exact ⟨[], Nat.zero_le _, (Buffer.write_nil rx_small valid).symm⟩
  · exact ⟨bytes, fits, wrote⟩

theorem plain_drains (fuel : Nat) : (plain N fuel).Drains := by
  intro e tx w status e' tx' w' answered valid
  rcases plainWrite_cases bounded valid answered with ⟨rfl, -⟩ | ⟨taken, inside, dropped, -⟩
  · exact ⟨0, Nat.zero_le _, (Buffer.incRpos_zero tx_small valid).symm⟩
  · exact ⟨taken, inside, dropped⟩

theorem plain_within (fuel : Nat) : (plain N fuel).Within where
  read answered valid := by
    rcases plainRead_cases bounded answered with ⟨same, -⟩ | ⟨bytes, -, fits, wrote, -⟩
    · exact same ▸ valid
    · exact wrote ▸ Buffer.write_valid rx_small valid fits
  write answered valid := by
    obtain ⟨taken, inside, dropped⟩ := plain_drains bounded fuel answered valid
    exact dropped ▸ Buffer.incRpos_valid tx_small valid inside

end Bounded

end Plain

end Manet.Transport
