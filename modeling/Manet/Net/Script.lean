/-
# Manet.Net.Script — a network that answers from a script

The world is the list of answers still to come, one list for each kind of call
that varies.  A call beyond its list connects at once, would block on reading,
and takes everything on writing.  Runs on concrete inputs use this backend.
-/
import Manet.Net.Dial

namespace Manet.Net

set_option autoImplicit false

structure Script where
  connects : List Ret := []
  /-- `none`: the address does not resolve. -/
  addrs : Option (List AddrInfo) := some [⟨2, 1, 6, []⟩]
  reads : List (Except Errno (List UInt8)) := []
  writes : List (Except Errno Nat) := []

def scripted : Backend Script where
  getaddrinfo _ _ w := (w.addrs, w)
  socket _ w := (⟨3, .other 0⟩, w)
  ioctl _ w := (⟨0, .other 0⟩, w)
  connect _ _ w :=
    match w.connects with
    | [] => (⟨0, .other 0⟩, w)
    | ret :: later => (ret, { w with connects := later })
  close _ w := w
  getsockopt _ w := ((0, 0), w)
  subscribe _ _ _ _ w := w
  clear _ w := w
  read _ len w :=
    match w.reads with
    | [] => (.error .eagain, w)
    | .error errno :: later => (.error errno, { w with reads := later })
    | .ok bytes :: later => (.ok (bytes.take len), { w with reads := later })
  write _ bytes w :=
    match w.writes with
    | [] => (.ok bytes.length, w)
    | .error errno :: later => (.error errno, { w with writes := later })
    | .ok taken :: later => (.ok (min taken bytes.length), { w with writes := later })

/-- A connect that is still in progress. -/
def pending : Ret := ⟨-1, .einprogress⟩

end Manet.Net
