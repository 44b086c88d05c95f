/-
# Manet.Net.Dial — the network interface and the non-blocking dial

`Backend ω` is what `net/concepts.hpp` asks of a backend: the socket calls, each a
function of a world `ω` that stands for the kernel, the resolver and everything
else outside the program.  Quantifying over `ω` and the functions is quantifying
over every outcome of every call.

`dial` (`net/dial.hpp`) walks the resolved addresses.  It returns the calls it
made, newest first, next to its result.  Custody of descriptors is followed over
such a list of calls: `Custody.after` refuses a descriptor opened while another
one is open, closed when it is not open, or closed while still registered.
`dial_custody` is the whole account: whatever the addresses and answers, every
descriptor it opened is closed except the one it returns.
-/
import Mathlib.Tactic.Common

namespace Manet.Net

set_option autoImplicit false

inductive Errno where
  | econnrefused
  | einval
  | einprogress
  | eagain
  | ewouldblock
  | eintr
  | other (code : Nat)
  deriving DecidableEq, Repr

def Errno.enoent : Errno := .other 2

def Errno.eexist : Errno := .other 17

/-- The value a system call returned, and `errno` after it. -/
structure Ret where
  value : Int
  errno : Errno
  deriving DecidableEq, Repr

structure AddrInfo where
  family : Int
  socktype : Int
  protocol : Int
  addr : List UInt8
  deriving DecidableEq, Repr

structure Event where
  signal : Bool := false
  close : Bool := false
  error : Bool := false
  readable : Bool := false
  writeable : Bool := false
  deriving DecidableEq, Repr

structure Backend (ω : Type) where
  /-- `none`: the resolver returned an error. -/
  getaddrinfo : String → UInt16 → ω → Option (List AddrInfo) × ω
  socket : AddrInfo → ω → Ret × ω
  ioctl : Int → ω → Ret × ω
  connect : Int → AddrInfo → ω → Ret × ω
  close : Int → ω → ω
  /-- The return value and the `SO_ERROR` it stored. -/
  getsockopt : Int → ω → (Int × Int) × ω
  subscribe : Nat → Int → Bool → Bool → ω → ω
  clear : Int → ω → ω
  /-- At most the offered number of bytes; none at all is end of file. -/
  read : Int → Nat → ω → Except Errno (List UInt8) × ω
  /-- How many of the offered bytes were taken. -/
  write : Int → List UInt8 → ω → Except Errno Nat × ω

/-- The calls on a backend that concern a descriptor. -/
inductive NetCall where
  | socket (fd : Int)
  | ioctl (fd : Int) (ret : Ret)
  | connect (fd : Int) (ret : Ret)
  | close (fd : Int)
  | getsockopt (fd : Int) (ret err : Int)
  | subscribe (fd : Int) (wantRead wantWrite : Bool)
  | clear (fd : Int)
  deriving DecidableEq, Repr

/-- `err` is `none` for `0`. -/
structure DialResult where
  fd : Int
  err : Option Errno
  deriving DecidableEq, Repr

section Dial

variable {ω : Type} (N : Backend ω)

/-- The loop over the resolved addresses. -/
def dialLoop : List AddrInfo → DialResult → ω → List NetCall → DialResult × ω × List NetCall
  | [], result, w, calls => (result, w, calls)
  | ai :: rest, result, w, calls =>
      let (opened, w) := N.socket ai w
      let socketfd := opened.value
      let calls := .socket socketfd :: calls
      if socketfd < 0 then dialLoop rest { result with err := some opened.errno } w calls
      else
        let (nonblocking, w) := N.ioctl socketfd w
        let calls := .ioctl socketfd nonblocking :: calls
        if nonblocking.value < 0 then
          dialLoop rest { result with err := some nonblocking.errno } (N.close socketfd w)
            (.close socketfd :: calls)
        else
          let (ok, w) := N.connect socketfd ai w
          let calls := .connect socketfd ok :: calls
          if ok.value = 0 then ({ fd := socketfd, err := none }, w, calls)
          else if ok.errno = .einprogress then ({ fd := socketfd, err := some ok.errno }, w, calls)
          else
            dialLoop rest { result with err := some ok.errno } (N.close socketfd w)
              (.close socketfd :: calls)

def dial (host : String) (port : UInt16) (w : ω) : DialResult × ω × List NetCall :=
  let result : DialResult := { fd := -1, err := some .econnrefused }
  match N.getaddrinfo host port w with
  | (none, w) => ({ result with err := some .einval }, w, [])
  | (some addrs, w) => dialLoop N addrs result w []

end Dial

/-! ## Custody of descriptors -/

/-- Who holds the open descriptor of a connection, if there is one: the dial
loop, or the connection that adopted it, before and after deregistering it. -/
inductive Custody where
  | free
  | dialed (fd : Int)
  | adopted (fd : Int)
  | cleared (fd : Int)
  deriving DecidableEq, Repr

/-- One call; `none` is a breach. -/
def Custody.after : Custody → NetCall → Option Custody
  | .free, .socket fd => some (if fd < 0 then .free else .dialed fd)
  | held, .socket fd => if fd < 0 then some held else none
  | .dialed fd, .close fd' => if fd' = fd then some .free else none
  | .cleared fd, .close fd' => if fd' = fd then some .free else none
  | _, .close _ => none
  | .adopted fd, .clear fd' => if fd' = fd then some (.cleared fd) else none
  | _, .clear _ => none
  | held, _ => some held

/-- A list of calls, newest first. -/
def Custody.afterAll (held : Custody) : List NetCall → Option Custody
  | [] => some held
  | call :: older => (Custody.afterAll held older).bind fun now => now.after call

/-- `1` if the descriptor is the one held. -/
def Custody.holds (fd : Int) : Custody → Nat
  | .free => 0
  | .dialed fd' | .adopted fd' | .cleared fd' => if fd' = fd then 1 else 0

def NetCall.opens (fd : Int) : NetCall → Nat
  | .socket fd' => if fd' = fd then 1 else 0
  | _ => 0

def NetCall.closes (fd : Int) : NetCall → Nat
  | .close fd' => if fd' = fd then 1 else 0
  | _ => 0

/-- Without a breach, a descriptor that was opened is held or has been closed. -/
theorem Custody.after_count {before held : Custody} {call : NetCall}
    (after : before.after call = some held) {fd : Int} (proper : 0 ≤ fd) :
    before.holds fd + call.opens fd = held.holds fd + call.closes fd := by
  cases call <;> cases before <;> grind [Custody.after, Custody.holds, NetCall.opens, NetCall.closes]

/-- The custody a dial result hands over. -/
def DialResult.custody (result : DialResult) : Custody :=
  if result.fd = -1 then .free else .dialed result.fd

section Dial

variable {ω : Type} (N : Backend ω)

theorem dialLoop_custody (addrs : List AddrInfo) (result : DialResult) (w : ω)
    (calls : List NetCall) (nothing : result.fd = -1)
    (closed : Custody.free.afterAll calls = some .free) :
    let (final, _, made) := dialLoop N addrs result w calls
    Custody.free.afterAll made = some final.custody ∧ (final.fd = -1 ∨ 0 ≤ final.fd) := by
  induction addrs generalizing result w calls with
  | nil => simp [dialLoop, DialResult.custody, nothing, closed]
  | cons ai rest ih =>
      simp only [dialLoop]
      by_cases failed : (N.socket ai w).1.value < 0
      · rw [if_pos failed]
        refine ih _ _ _ nothing ?_
        simp [Custody.afterAll, closed, Custody.after, failed]
      rw [if_neg failed]
      -- from here on the descriptor is open, and every way out closes or returns it
      have opened : Custody.free.afterAll
          (.ioctl (N.socket ai w).1.value (N.ioctl (N.socket ai w).1.value (N.socket ai w).2).1 ::
            .socket (N.socket ai w).1.value :: calls) = some (.dialed (N.socket ai w).1.value) := by
        simp [Custody.afterAll, closed, Custody.after, failed]
      have ne : (N.socket ai w).1.value ≠ -1 := by omega
      split
      · refine ih _ _ _ nothing ?_
        rw [Custody.afterAll, opened]
        simp [Custody.after]
      split
      · refine ⟨?_, .inr (by simpa using failed)⟩
        rw [Custody.afterAll, opened]
        simp [Custody.after, DialResult.custody, ne]
      split
      · refine ⟨?_, .inr (by simpa using failed)⟩
        rw [Custody.afterAll, opened]
        simp [Custody.after, DialResult.custody, ne]
      · refine ih _ _ _ nothing ?_
        rw [Custody.afterAll, Custody.afterAll, opened]
        simp [Custody.after]

/-- **Every descriptor a dial opened is closed again, except the one it returns.** -/
theorem dial_custody (host : String) (port : UInt16) (w : ω) :
    let (final, _, made) := dial N host port w
    Custody.free.afterAll made = some final.custody ∧ (final.fd = -1 ∨ 0 ≤ final.fd) := by
  unfold dial
  rcases N.getaddrinfo host port w with ⟨_ | addrs, w'⟩
  · simp [Custody.afterAll, DialResult.custody]
  · exact dialLoop_custody N addrs _ w' [] rfl rfl

end Dial

end Manet.Net
