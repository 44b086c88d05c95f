/-
# Manet.Reactor.Turns — one turn of each loop, taken apart

What the proofs about a loop need of its turn, said once: what a turn of `transport_read` goes on
with once the endpoint has answered (`afterRead`), the turn that both loops over `on_shutdown`
make (`partingTurn`), and the step a turn of `steps` takes (`stepOf`).
-/
import Manet.Reactor.Connection

namespace Manet.Reactor

open Manet.Flow Manet.Net

set_option autoImplicit false

variable {ω : Type} {N : Backend ω} {T : Transport.Layer ω} {P : Protocol.Layer ω}

/-! ## `transport_read` -/

/-- A turn of `transport_read` once the endpoint has answered. -/
def afterRead (N : Backend ω) (consume : Method T P Bool) (onClose : Method T P Unit) (before : Nat)
    (status : Transport.Status) : Method T P (Option Unit) := do
  let c ← get
  let more ← (if c.rx.rsize ≠ before then consume else pure true : Method T P Bool)
  if more then
    match status with
    | .ok => return none
    | .close =>
        onClose
        return some ()
    | .wantRead | .wantWrite =>
        arm N status
        return some ()
    | .error =>
        modify (Conn.enterError N)
        return some ()
  else
    return some ()

theorem readTurn_room {consume : Method T P Bool} {onClose : Method T P Unit} {c : Conn T P}
    (room : c.rx.full = false) : (readTurn N consume onClose).exec c =
      (endpointRead >>= afterRead N consume onClose c.rx.rsize).exec c := by
  unfold readTurn
  rw [Prog.exec_get_bind, if_neg (by simp [room])]
  rfl

theorem readTurn_full {consume : Method T P Bool} {onClose : Method T P Unit} {c : Conn T P}
    (full : c.rx.full = true) : (readTurn N consume onClose).exec c =
      (some (some ()), (c.log (.overflow c.rx)).enterError N) := by
  unfold readTurn
  rw [Prog.exec_get_bind, if_pos full]
  rfl

/-! ## The loops over `on_shutdown` -/

/-- A turn of either loop over `on_shutdown`: it leaves the loop with `gone` when the state has
changed and with `stuck` when nothing was consumed. -/
def partingTurn {α : Type} (N : Backend ω) (fuel : Nat) (gone stuck : α)
    (f : Protocol.Handler P.Session ω) : Method T P (Option α) := do
  let c ← get
  let before := c.rx.rsize
  match ← sessionHandler .onShutdown f with
  | .ok =>
      let _ ← transportWrite N fuel
      let c ← get
      if c.state ≠ .closeProtocol then return some gone
      else if before ≤ c.rx.rsize then return some stuck
      else return none
  | .close =>
      modify (Conn.assign .drainProtocol)
      return some gone
  | .error =>
      modify (Conn.enterError N)
      return some gone

theorem shutdownTurn_eq (fuel : Nat) (f : Protocol.Handler P.Session ω) :
    (shutdownTurn N fuel f : Method T P _) = partingTurn N fuel () () f := rfl

theorem closeTurn_eq (fuel : Nat) (f : Protocol.Handler P.Session ω) :
    (closeTurn N fuel f : Method T P _) = partingTurn N fuel false true f := rfl

/-! ## `steps` -/

/-- The step a turn of `steps` takes, if it takes one. -/
def stepOf (N : Backend ω) (fuel : Nat) (ev : Option Event) : State → Option (Method T P Unit)
  | .uninitialized => none
  | .inProgress => ev.map (stepInProgress N fuel)
  | .transport => some (stepTransport N fuel)
  | .protocol => ev.map (stepProtocol N fuel)
  | .closeProtocol => ev.map (stepCloseProtocol N fuel)
  | .drainProtocol => some (stepDrainProtocol N fuel ev)
  | .closeTransport => some (stepCloseTransport N)
  | .closed | .error => none

/-- A turn of `steps`, from what its step does. -/
theorem stepsTurn_exec {fuel : Nat} {ev : Option Event} {c : Conn T P}
    (begun : c.state ≠ .uninitialized) :
    (stepsTurn N fuel ev).exec c = ((stepOf N fuel ev c.state).elim (pure (some ()))
      (Prog.settle fun c' => c'.state = c.state)).exec c := by
  unfold stepsTurn
  rw [Prog.exec_get_bind]
  cases state : c.state with
  | uninitialized => exact absurd state begun
  | inProgress | protocol | closeProtocol => cases ev <;> rfl
  | transport | drainProtocol | closeTransport | closed | error => rfl

/-- The last turn of `steps` leaves the state as it found it, and is its step. -/
theorem stepsTurn_returns {fuel : Nat} {ev : Option Event} {c c' : Conn T P}
    (returned : (stepsTurn N fuel ev).exec c = (some (some ()), c')) :
    c'.state = c.state ∧ ∀ step, stepOf N fuel ev c.state = some step → step.exec c = (some (), c') := by
  have begun : c.state ≠ .uninitialized := by
    intro fresh
    unfold stepsTurn at returned
    rw [Prog.exec_get_bind, fresh] at returned
    cases returned
  rw [stepsTurn_exec begun] at returned
  cases taken : (stepOf N fuel ev c.state : Option (Method T P Unit)) with
  | none =>
      rw [taken] at returned
      cases returned
      exact ⟨rfl, by simp⟩
  | some step =>
      rw [taken] at returned
      obtain ⟨executed, same⟩ := Prog.exec_settle_returns returned
      refine ⟨same, ?_⟩
      rintro _ ⟨⟩
      exact executed

end Manet.Reactor
