/-
# Manet.Transport.Tls — the TLS transport

`Tls` (`transport/tls.hpp`, `transport/tls.cc`) is a thin layer over OpenSSL: each
step is one call and a translation of `SSL_get_error`.  `OpenSsl ω` is what it calls;
nothing is assumed of it except, where it matters, that it stores and takes no more
bytes than it is offered (`OpenSsl.Bounded`).  Within that bound the TLS endpoint
appends to RX and consumes from TX like the plain one, and whatever it asks for, a
write that did not succeed has left TX alone.
-/
import Manet.Transport.Endpoint

namespace Manet.Transport

open Manet.Net Manet.Reactor

set_option autoImplicit false

/-- What `SSL_get_error` returns, as far as it is told apart. -/
inductive SslError where
  | wantRead
  | wantWrite
  | zeroReturn
  | other
  deriving DecidableEq, Repr

/-- The calls of `TlsEndpoint`. -/
structure OpenSsl (ω : Type) where
  Handle : Type
  /-- `SSL_new`; `none` for `nullptr`. -/
  new : ω → Option Handle × ω
  /-- `SSL_set_bio` with a socket BIO on the descriptor, and `SSL_set_connect_state`. -/
  setBio : Handle → Int → ω → ω
  setTlsextHostName : Handle → String → ω → Int × ω
  setVerifyPeer : Handle → ω → ω
  set1Host : Handle → String → ω → Int × ω
  connect : Handle → ω → Int × ω
  /-- `SSL_read` into a window of the given size: its result, and what it stored. -/
  read : Handle → Nat → ω → Int × List UInt8 × ω
  write : Handle → List UInt8 → ω → Int × ω
  shutdown : Handle → ω → Int × ω
  getError : Handle → Int → ω → SslError
  free : Handle → ω → ω

/-- A result above zero counts bytes that were stored, or taken. -/
structure OpenSsl.Bounded {ω : Type} (O : OpenSsl ω) : Prop where
  read : ∀ h len w, 0 < (O.read h len w).1 →
    (O.read h len w).1 = (O.read h len w).2.1.length ∧ (O.read h len w).2.1.length ≤ len
  write : ∀ h bytes w, (O.write h bytes w).1 ≤ bytes.length

section Tls

variable {ω : Type} (O : OpenSsl ω)

def INT_MAX : Nat := 2 ^ 31 - 1

/-- The translation at the end of `read` and `write`. -/
def SslError.status : SslError → Status
  | .wantRead => .wantRead
  | .wantWrite => .wantWrite
  | .zeroReturn => .close
  | .other => .error

def tlsInit (fd : Int) (host : String) (w : ω) : Option O.Handle × ω :=
  match O.new w with
  | (none, w) => (none, w)
  | (some h, w) =>
      let w := O.setBio h fd w
      let (named, w) := O.setTlsextHostName h host w
      if named ≠ 1 then (none, O.free h w)
      else
        let w := O.setVerifyPeer h w
        let (pinned, w) := O.set1Host h host w
        if pinned ≠ 1 then (none, O.free h w) else (some h, w)

def tlsHandshakeStep (h : O.Handle) (w : ω) : Status × ω :=
  let (r, w) := O.connect h w
  if r ≠ 1 then
    match O.getError h r w with
    | .wantWrite => (.wantWrite, w)
    | .wantRead => (.wantRead, w)
    | _ => (.error, w)
  else (.ok, w)

def tlsRead (h : O.Handle) (rx : Buffer RX_CAP) (w : ω) : Status × Buffer RX_CAP × ω :=
  let sz := if rx.wsize < INT_MAX then rx.wsize else INT_MAX
  let (len, bytes, w) := O.read h sz w
  if 0 < len then (.ok, (rx.store bytes).incWpos len.toNat, w)
  else ((O.getError h len w).status, rx, w)

def tlsWrite (h : O.Handle) (tx : Buffer TX_CAP) (w : ω) : Status × Buffer TX_CAP × ω :=
  let sz := if tx.rsize < INT_MAX then tx.rsize else INT_MAX
  let (len, w) := O.write h (tx.rbuf.take sz) w
  if 0 < len then (.ok, tx.incRpos len.toNat, w)
  else ((O.getError h len w).status, tx, w)

def tlsShutdownStep (h : O.Handle) (w : ω) : Status × ω :=
  let (r, w) := O.shutdown h w
  if r = 1 then (.ok, w)
  else
    match O.getError h r w with
    | .zeroReturn => (.ok, w)
    | .wantWrite => (.wantWrite, w)
    | .wantRead => (.wantRead, w)
    | .other => (.error, w)

/-- The endpoint is its `SSL *`, which is used only after `init` has set it: a step on
`nullptr` has no meaning.  `blank` is the pointer of a connection that has not connected
yet, which the code leaves indeterminate. -/
def tls (blank : Option O.Handle) : Layer ω where
  Config := String
  Endpoint := Option O.Handle
  blank := blank
  init fd host w :=
    let (made, w) := tlsInit O fd host w
    (made.map some, w)
  handshakeStep := some fun e w => e.map fun h =>
    let (status, w) := tlsHandshakeStep O h w
    (status, e, w)
  read e rx w := e.map fun h =>
    let (status, rx, w) := tlsRead O h rx w
    (status, e, rx, w)
  write e tx w := e.map fun h =>
    let (status, tx, w) := tlsWrite O h tx w
    (status, e, tx, w)
  shutdownStep := some fun e w => e.map fun h =>
    let (status, w) := tlsShutdownStep O h w
    (status, e, w)
  destroy e w :=
    match e with
    | none => (none, w)
    | some h => (some h, O.free h w)

/-- A write of the TLS endpoint succeeds, or leaves the buffer alone. -/
theorem tlsWrite_cases {h : O.Handle} {tx tx' : Buffer TX_CAP} {w w' : ω} {status : Status}
    (answered : tlsWrite O h tx w = (status, tx', w')) :
    tx' = tx ∧ status ≠ .ok ∨ ∃ bytes : List UInt8, bytes.length ≤ tx.rsize ∧
      0 < (O.write h bytes w).1 ∧ tx' = tx.incRpos (O.write h bytes w).1.toNat ∧ status = .ok := by
  simp only [tlsWrite] at answered
  generalize (if tx.rsize < INT_MAX then tx.rsize else INT_MAX) = sz at answered
  by_cases positive : 0 < (O.write h (tx.rbuf.take sz) w).1
  · rw [if_pos positive] at answered
    cases answered
    refine .inr ⟨tx.rbuf.take sz, ?_, positive, rfl, rfl⟩
    rw [List.length_take, Buffer.rbuf_length]
    exact Nat.min_le_right _ _
  · rw [if_neg positive] at answered
    cases answered
    refine .inl ⟨rfl, ?_⟩
    unfold SslError.status
    split <;> simp

theorem tls_write {blank : Option O.Handle} {e e' : (tls O blank).Endpoint} {tx tx' : Buffer TX_CAP}
    {w w' : ω} {status : Status} (answered : (tls O blank).write e tx w = some (status, e', tx', w')) :
    ∃ h : O.Handle, tlsWrite O h tx w = (status, tx', w') := by
  obtain ⟨h, -, same⟩ := Option.map_eq_some_iff.mp answered
  cases same
  exact ⟨h, rfl⟩

theorem tls_read {blank : Option O.Handle} {e e' : (tls O blank).Endpoint} {rx rx' : Buffer RX_CAP}
    {w w' : ω} {status : Status} (answered : (tls O blank).read e rx w = some (status, e', rx', w')) :
    ∃ h : O.Handle, tlsRead O h rx w = (status, rx', w') := by
  obtain ⟨h, -, same⟩ := Option.map_eq_some_iff.mp answered
  cases same
  exact ⟨h, rfl⟩

theorem tls_keeps (blank : Option O.Handle) : (tls O blank).Keeps := by
  intro e tx w status e' tx' w' answered asks unsent
  obtain ⟨h, wrote⟩ := tls_write O answered
  rcases tlsWrite_cases O wrote with ⟨rfl, -⟩ | ⟨-, -, -, -, ok⟩
  · exact unsent
  · rcases asks with asks | asks <;> rw [ok] at asks <;> cases asks

variable {O} (bounded : O.Bounded)
include bounded

theorem tls_drains (blank : Option O.Handle) : (tls O blank).Drains := by
  intro e tx w status e' tx' w' answered valid
  obtain ⟨h, wrote⟩ := tls_write O answered
  rcases tlsWrite_cases O wrote with ⟨rfl, -⟩ | ⟨bytes, fits, -, dropped, -⟩
  · exact ⟨0, Nat.zero_le _, (Buffer.incRpos_zero tx_small valid).symm⟩
  · refine ⟨_, ?_, dropped⟩
    have taken := bounded.write h bytes w
    omega

/-- A read of the TLS endpoint stores and commits the same bytes, or none. -/
theorem tlsRead_cases {h : O.Handle} {rx rx' : Buffer RX_CAP} {w w' : ω} {status : Status}
    (answered : tlsRead O h rx w = (status, rx', w')) :
    rx' = rx ∨ ∃ bytes, bytes.length ≤ rx.wsize ∧ rx' = rx.write bytes := by
  simp only [tlsRead] at answered
  have window : (if rx.wsize < INT_MAX then rx.wsize else INT_MAX) ≤ rx.wsize := by
    split <;> omega
  generalize (if rx.wsize < INT_MAX then rx.wsize else INT_MAX) = sz at answered window
  by_cases positive : 0 < (O.read h sz w).1
  · rw [if_pos positive] at answered
    cases answered
    obtain ⟨counted, fits⟩ := bounded.read h sz w positive
    refine .inr ⟨(O.read h sz w).2.1, Nat.le_trans fits window, ?_⟩
    rw [counted, Int.toNat_natCast]
    rfl
  · rw [if_neg positive] at answered
    cases answered
    exact .inl rfl

theorem tls_fills (blank : Option O.Handle) : (tls O blank).Fills := by
  intro e rx w status e' rx' w' answered valid
  obtain ⟨h, read⟩ := tls_read O answered
  rcases tlsRead_cases bounded read with rfl | ⟨bytes, fits, rfl⟩
  · exact ⟨rfl, Nat.le_refl _⟩
  · exact ⟨rfl, Buffer.wpos_le_incWpos rx_small (Buffer.store_valid valid bytes) fits⟩

theorem tls_appends (blank : Option O.Handle) : (tls O blank).Appends := by
  intro e rx w status e' rx' w' answered valid
  obtain ⟨h, read⟩ := tls_read O answered
  rcases tlsRead_cases bounded read with rfl | wrote
  · exact ⟨[], Nat.zero_le _, (Buffer.write_nil rx_small valid).symm⟩
  · exact wrote

theorem tls_within (blank : Option O.Handle) : (tls O blank).Within where
  read answered valid := by
    obtain ⟨h, read⟩ := tls_read O answered
    rcases tlsRead_cases bounded read with rfl | ⟨bytes, fits, rfl⟩
    · exact valid
    · exact Buffer.write_valid rx_small valid fits
  write answered valid := by
    obtain ⟨taken, inside, dropped⟩ := tls_drains bounded blank answered valid
    exact dropped ▸ Buffer.incRpos_valid tx_small valid inside

end Tls

end Manet.Transport
