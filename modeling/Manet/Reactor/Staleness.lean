/-
# Manet.Reactor.Staleness — which descriptor an event is applied to

An event carries the connection it is for, and nothing of the descriptor it was generated
for.  The backend reports on the descriptors of the moment of the poll, so the epoch of
the connection at the poll is the one an event belongs to.  Descriptor numbers do not tell:
a restart may well get the number it has just given back.

`events_current`: an event is applied in the epoch it was generated in exactly if its
connection has not been restarted since the poll.  In a run whose batches have no two events
of one connection that is always so; where reading and writing are reported separately, the
second of the two can meet the next descriptor.
-/
import Manet.Reactor.Lifecycle
import Manet.Reactor.Loop

namespace Manet.Reactor

open Manet.Flow Manet.Net Relation

set_option autoImplicit false

variable {ω : Type} {N : Backend ω}

section Connection

variable {T : Transport.Layer ω} {P : Protocol.Layer ω} {c c' : Conn T P}

theorem epoch_dialed (c : Conn T P) : epoch (c.begin.dial N).2.history = epoch c.history + 1 :=
  Conn.dial_unread N (fun _ _ _ => rfl) (fun _ _ _ => rfl) c.begin

theorem Quits.epoch (quits : Quits N c c') : epoch c'.history = epoch c.history := by
  cases quits with
  | early =>
      exact Conn.teardown_unread N (f := Reactor.epoch) (fun _ _ => rfl) (fun _ _ => rfl)
        (fun _ _ _ => rfl) _
  | transport | protocol | already => rfl

end Connection

variable {n : Nat} {S : Selector ω n} {T : Fin n → Transport.Layer ω} {P : Fin n → Protocol.Layer ω}

/-- The account of the epochs is right. -/
structure Accounted (r : Reactor T P) : Prop where
  stamped : ∀ i, r.stamps i ≤ epoch (r.conns i).history
  begun : ∀ i, i ∈ r.begun ↔ r.stamps i < epoch (r.conns i).history
  handed : ∀ e ∈ r.handed, e.generated = e.current ↔ e.renewed = false
  single : r.Singly → ∀ e ∈ r.handed, e.renewed = false

/-- A connection does something within its epoch. -/
theorem Accounted.within {r : Reactor T P} (inv : Accounted r) {i : Fin n} {c : Conn (T i) (P i)}
    (same : epoch c.history = epoch (r.conns i).history) : Accounted (r.put i c) := by
  have epochs : ∀ j, epoch ((r.put i c).conns j).history = epoch (r.conns j).history :=
    Reactor.forall_put (p := fun j c => epoch c.history = epoch (r.conns j).history) same fun _ _ => rfl
  refine ⟨fun j => ?_, fun j => ?_, inv.handed, inv.single⟩
  · rw [epochs]
    exact inv.stamped j
  · rw [epochs]
    exact inv.begun j

/-- A connection begins an epoch. -/
theorem Accounted.begins {r : Reactor T P} (inv : Accounted r) {i : Fin n} {c : Conn (T i) (P i)}
    (next : epoch c.history = epoch (r.conns i).history + 1) : Accounted ((r.begins i).put i c) := by
  refine ⟨?_, ?_, inv.handed, inv.single⟩
  · apply Reactor.forall_put (p := fun j c => r.stamps j ≤ epoch c.history)
    · rw [next]
      exact Nat.le_succ_of_le (inv.stamped i)
    · exact fun j _ => inv.stamped j
  · apply Reactor.forall_put (p := fun j c => j ∈ i :: r.begun ↔ r.stamps j < epoch c.history)
    · rw [next]
      exact iff_of_true List.mem_cons_self (Nat.lt_succ_of_le (inv.stamped i))
    · intro j other
      rw [List.mem_cons, inv.begun j]
      exact or_iff_right other

theorem Accounted.hand {r : Reactor T P} (inv : Accounted r) {i : Fin n}
    (fresh : r.Singly → i ∉ r.begun) : Accounted (r.hand i) where
  stamped := inv.stamped
  begun := inv.begun
  handed e member := by
    rcases List.mem_cons.mp member with rfl | before
    · have stamped := inv.stamped i
      have begun := inv.begun i
      simp only [decide_eq_false_iff_not, begun]
      omega
    · exact inv.handed e before
  single singly e member := by
    rcases List.mem_cons.mp member with rfl | before
    · exact decide_eq_false (fresh singly)
    · exact inv.single singly e before

theorem Advance.accounted {r r' : Reactor T P} (advance : Advance N S r r') (inv : Accounted r) :
    Accounted r' := by
  cases advance with
  | move i c move => exact inv.within move.epoch
  | attach i => exact inv.begins (epoch_dialed _)
  | restart i => exact inv.begins (epoch_dialed _)
  | event i ev fresh => exact (inv.hand fresh).within rfl
  | beat i => exact inv.within rfl
  | stop i c _ quits => exact inv.within quits.epoch
  | polled w batch =>
      refine ⟨fun i => Nat.le_refl _, fun i => ?_, inv.handed, fun singly => inv.single ?_⟩
      · exact iff_of_false List.not_mem_nil (Nat.lt_irrefl _)
      · exact fun about member => singly about (List.mem_append_right _ member)
  | seen | halt | netStop | tick => exact ⟨inv.stamped, inv.begun, inv.handed, inv.single⟩

theorem make_accounted (configs : ∀ i, ConnectionConfig (T i) (P i)) (w : ω) :
    Accounted (Reactor.make configs w) where
  stamped _ := Nat.zero_le _
  begun _ := iff_of_false List.not_mem_nil (Nat.lt_irrefl 0)
  handed _ none := absurd none List.not_mem_nil
  single _ _ none := absurd none List.not_mem_nil

/-- **An event meets the descriptor it was generated for exactly if its connection has not
been restarted since the poll**, and that is always so in a run of which no batch has two events
of one connection. -/
theorem events_current (fuel k : Nat) (configs : ∀ i, ConnectionConfig (T i) (P i)) (w : ω) :
    let r := ((run N S fuel k).exec (Reactor.make configs w)).2
    (∀ e ∈ r.handed, e.generated = e.current ↔ e.renewed = false) ∧
      (r.Singly → ∀ e ∈ r.handed, e.renewed = false) := by
  intro r
  have inv : Accounted r := (run_advances fuel k configs w).invariant
    (fun _ _ advance => advance.accounted) (make_accounted configs w)
  exact ⟨inv.handed, inv.single⟩

/-- A backend that reports the same events at every poll. -/
def reporting (events : List (Notice 1)) (few : events.length ≤ 2) : Selector Script 1 where
  poll w := (some events, w)
  poll_length _ _ same := Option.some.inj same ▸ few
  drain w := w
  stop w := w

/-- One silent connection over a scripted network. -/
def lone (script : Script) : Reactor (fun _ : Fin 1 => Transport.plain scripted 1) fun _ => mute :=
  Reactor.make (fun _ => ⟨"host", 80, (), ()⟩) script

/-- The server closes; the second connect is still in progress after a restart. -/
def reconnecting : Script := { connects := [⟨0, .other 0⟩, pending], reads := [.ok []] }

/-- Reading and writing in one event: it meets the descriptor that was polled. -/
theorem events_current_single :
    let S := reporting [.ready 0 { readable := true, writeable := true }] (by decide)
    let r := ((run scripted S 9 1).exec (lone reconnecting)).2
    r.handed.length = 1 ∧ ∀ e ∈ r.handed, e.generated = e.current := by
  have singly : ((run scripted (reporting [.ready 0 { readable := true, writeable := true }]
      (by decide)) 9 1).exec (lone reconnecting)).2.Singly := by
    unfold Reactor.Singly
    decide +kernel
  refine ⟨by decide +kernel, ?_⟩
  obtain ⟨current, fresh⟩ := events_current (N := scripted)
    (S := reporting [.ready 0 { readable := true, writeable := true }] (by decide))
    (T := fun _ => Transport.plain scripted 1) (P := fun _ => mute) 9 1
    (fun _ => ⟨"host", 80, (), ()⟩) reconnecting
  intro e member
  exact (current e member).mpr (fresh singly e member)

/-- Reading and writing in two events: the first ends the connection, which is restarted, and
the second takes the new descriptor for connected. -/
theorem stale_event :
    let S := reporting [.ready 0 { readable := true }, .ready 0 { writeable := true }] (by decide)
    let r := ((run scripted S 9 1).exec (lone reconnecting)).2
    (∃ e ∈ r.handed, e.generated = 1 ∧ e.current = 2 ∧ e.state = .inProgress) ∧
      (r.conns 0).state = .protocol := by
  decide +kernel

end Manet.Reactor
