/-
# Manet.Reactor.Reading — a backend's events, read as notices

The reactor asks of each event, when its turn comes, whether it is the signal, and otherwise
follows its user data.  Reading the whole batch at the poll gives a `Selector`
(`EventSource.selector`).  The two differ if what an event means changes while the batch is
served, or if an event leads to no connection; `EventSource.loop_reads` reduces the rest to one
event at a time.
-/
import Manet.Reactor.Loop

namespace Manet.Reactor

open Manet.Flow Manet.Net

set_option autoImplicit false

variable {ω : Type} {n : Nat}

namespace EventSource

section Selector

variable (E : EventSource ω n)

/-- What an event means, as the world is. -/
def read (w : ω) (ev : E.Ev) : Option (Notice n) :=
  if (E.evSignal ev w).1 then some .signal
  else (E.getUserData ev).map fun i => .ready i (E.flags ev)

/-- Every batch is read as it is found. -/
def selector (few : ∀ w events, (E.poll w).1 = some events → events.length ≤ n + 1)
    (drain : ω → ω) : Selector ω n where
  poll w := ((E.poll w).1.map fun events => events.filterMap (E.read (E.poll w).2), (E.poll w).2)
  poll_length w batch polled := by
    obtain ⟨events, found, rfl⟩ := Option.map_eq_some_iff.mp polled
    exact (List.length_filterMap_le _ _).trans (few w events found)
  drain := drain
  stop := E.stop

theorem targets_read (w : ω) (events : List E.Ev) :
    Reactor.targets (events.filterMap (E.read w)) = E.targets w events := by
  unfold Reactor.targets targets
  rw [List.filterMap_filterMap]
  refine List.filterMap_congr fun ev _ => ?_
  unfold read target
  split
  · rfl
  · cases E.getUserData ev <;> rfl

end Selector

variable {E : EventSource ω n} {few : ∀ w events, (E.poll w).1 = some events → events.length ≤ n + 1}
variable {drain : ω → ω} {T : Fin n → Transport.Layer ω} {P : Fin n → Protocol.Layer ω}
variable {N : Backend ω} {fuel : Nat} {r : Reactor T P}

/-- An event is served as the notice it is read as. -/
theorem notice_reads {ev : E.Ev} {event : Notice n}
    (same : (serve N E fuel ev).exec r = (serve N (E.selector few drain).source fuel event).exec r) :
    (notice N E fuel ev).exec r = (notice N (E.selector few drain).source fuel event).exec r :=
  Prog.exec_bind_congr same fun _ _ _ => rfl

theorem notice_signal {ev : E.Ev} (signal : E.evSignal ev r.world = (true, drain r.world)) :
    (notice N E fuel ev).exec r = (notice N (E.selector few drain).source fuel .signal).exec r := by
  apply notice_reads
  rw [serve_exec, serve_signal, signal]
  rfl

theorem notice_ready {ev : E.Ev} {i : Fin n} (other : E.evSignal ev r.world = (false, r.world))
    (points : E.getUserData ev = some i) :
    (notice N E fuel ev).exec r =
      (notice N (E.selector few drain).source fuel (.ready i (E.flags ev))).exec r := by
  apply notice_reads
  rw [serve_exec, serve_ready, other, points]
  rfl

/-- **One iteration**, if the events are served one by one as what they were read as. -/
theorem loop_reads (inv : List E.Ev → Reactor T P → Prop)
    (start : ∀ events, (E.poll r.world).1 = some events →
      inv events (r.polled (E.poll r.world).2 (some (E.targets (E.poll r.world).2 events))))
    (step : ∀ ev rest r', inv (ev :: rest) r' → ∃ event, E.read (E.poll r.world).2 ev = some event ∧
      (notice N E fuel ev).exec r' = (notice N (E.selector few drain).source fuel event).exec r' ∧
      ∀ r'', (notice N (E.selector few drain).source fuel event).exec r' = (some (), r'') →
        inv rest r'') :
    (loop N E fuel).exec r = (loop N (E.selector few drain).source fuel).exec r := by
  rcases polled : E.poll r.world with ⟨found, w⟩
  have read : (E.selector few drain).poll r.world =
      (found.map fun events => events.filterMap (E.read w), w) := by
    simp only [selector, polled]
  rw [polled] at start step
  unfold loop
  rw [Prog.exec_get_bind, Prog.exec_get_bind, polled]
  simp only [Selector.source, read]
  rw [Prog.exec_modify_bind, Prog.exec_modify_bind]
  cases found with
  | none => rfl
  | some events =>
      have about : (E.selector few drain).source.targets w (events.filterMap (E.read w)) =
          E.targets w events := by
        rw [source_targets, targets_read]
      simp only [Option.map_some]
      rw [about]
      refine Prog.exec_bind_congr ?_ fun _ _ _ => rfl
      exact Prog.exec_inTurn_congr inv step events _ (start events rfl)

end EventSource

end Manet.Reactor
