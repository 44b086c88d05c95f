/-
# Manet.Reactor.Overflow — when RX counts as full

`transport_read` ends the connection when the write position of RX has reached the end of
the array, and `inc_rpos` returns the positions to the start only when everything has been
read.  So a buffer that is nearly empty counts as full when a handler leaves the first
bytes of a frame at the end of the array and is not called again on them: `strands` is that
answer.  As long as no handler gives it, an overflow means what it says
(`overflow_genuine`): RX_CAP unread bytes.
-/
import Manet.Reactor.Windows

namespace Manet.Reactor

open Manet.Flow Manet.Net Relation

set_option autoImplicit false

/-- A handler leaves RX at the end of the array, with bytes consumed in front of what is
unread; unless it is `on_data` that has just consumed some and is called again on the rest. -/
def strands (_ : State) (act : Act) (_ : History) : Bool :=
  match act with
  | .handler kind _ before after =>
      after.rx.wpos = RX_CAP && after.rx.rpos ≠ 0 &&
        !(kind = .onData && after.rx.rsize < before.rx.rsize && after.rx.rsize ≠ 0)
  | _ => false

/-- RX holds RX_CAP unread bytes whenever it overflows while the session is called. -/
def overflowOk : History → Bool
  | [] => true
  | (s, .overflow rx) :: h => (!s.polls || rx.rsize = RX_CAP) && overflowOk h
  | _ :: h => overflowOk h

variable {ω : Type} {N : Backend ω} {T : Transport.Layer ω} {P : Protocol.Layer ω}

/-- Before the session is called RX is empty; when nothing is due to it, RX is at its end
only if nothing of it has been consumed. -/
structure Level (c : Conn T P) : Prop where
  ok : overflowOk c.history = true
  early : c.state.rank < 3 → c.rx.wpos = 0
  polling : c.state.polls = true → owed P.onConnect.isSome c.history = false →
    c.rx.wpos = RX_CAP → c.rx.rpos = 0

/-- An act that reads and calls nothing. -/
theorem Level.logged {c c' : Conn T P} (level : Level c) {s : State} {act : Act}
    (history : c'.history = (s, act) :: c.history) (state : c'.state = c.state) (rx : c'.rx = c.rx)
    (blind : overflowOk ((s, act) :: c.history) = overflowOk c.history)
    (same : owed P.onConnect.isSome ((s, act) :: c.history) = owed P.onConnect.isSome c.history) :
    Level c' where
  ok := by
    rw [history, blind]
    exact level.ok
  early := state ▸ rx ▸ level.early
  polling := by
    rw [state, history, same, rx]
    exact level.polling

/-- Past `close_protocol`. -/
theorem level_late {c : Conn T P} (ok : overflowOk c.history = true) (late : 4 < c.state.rank) :
    Level c where
  ok := ok
  early early := absurd early (by omega)
  polling polls := by
    have earlier := State.rank_of_polls polls
    omega

/-- An empty buffer is not at its end. -/
theorem level_of_empty {c : Conn T P} (ok : overflowOk c.history = true) (empty : c.rx.wpos = 0) :
    Level c where
  ok := ok
  early _ := empty
  polling _ _ full := by
    rw [empty] at full
    cases full

/-- What an overflow finds. -/
theorem Level.overflows {c : Conn T P} (level : Level c) (valid : c.rx.Valid)
    (full : c.rx.full = true) (attentive : Attentive c) :
    (!c.state.polls || decide (c.rx.rsize = RX_CAP)) = true := by
  cases polls : c.state.polls with
  | false => rfl
  | true =>
      have atEnd : c.rx.wpos = RX_CAP := (of_decide_eq_true full).symm
      have start := level.polling polls (attentive.idle polls) atEnd
      have size := Buffer.rsize_eq valid
      simp [size, atEnd, start]

/-- A read that found room: either it brought bytes, and they are due, or it left RX alone. -/
theorem Level.read {c : Conn T P} (level : Level c) {status : Transport.Status} {e : T.Endpoint}
    {rx : Buffer RX_CAP} {w : ω} (reading : c.state.reads = true) (room : c.rx.full = false)
    (valid : c.rx.Valid) (start : rx.rpos = c.rx.rpos) (grown : c.rx.wpos ≤ rx.wpos) :
    Level (c.didRead status e rx w) where
  ok := level.ok
  early early := by
    replace early : c.state.rank < 3 := early
    have later := State.rank_of_flows (State.flows_of_reads reading)
    omega
  polling polls idle full := by
    replace full : rx.wpos = RX_CAP := full
    have short : c.rx.wpos ≠ RX_CAP := by
      intro atEnd
      simp [Buffer.full, atEnd] at room
    have before := Buffer.rsize_eq valid
    have ordered := valid.ordered
    have after : rx.rsize = rx.wpos - rx.rpos := sizeSub_of_le (by omega)
    have brought : rx.rsize ≠ c.rx.rsize := by omega
    have due : owed P.onConnect.isSome (c.didRead status e rx w).history = decide (rx.rsize ≠ 0) :=
      if_neg brought
    rw [due, decide_eq_false_iff_not] at idle
    omega

theorem Level.handled {c : Conn T P} (level : Level c) {kind : Protocol.HandlerKind}
    {status : Protocol.Status} {s : P.Session} {io : Io} {w : ω} (polls : c.state.polls = true)
    (never : occurs strands (c.handled kind status s io w).history = false) :
    Level (c.handled kind status s io w) where
  ok := level.ok
  early early := by
    replace early : c.state.rank < 3 := early
    have later := State.rank_of_polls polls
    omega
  polling _ idle full := by
    replace full : io.rx.wpos = RX_CAP := full
    have again : (decide (kind = .onData) && decide (io.rx.rsize < c.rx.rsize) &&
        decide (io.rx.rsize ≠ 0)) = false := idle
    have kept : strands c.state (.handler kind status ⟨c.rx, c.tx⟩ io) c.history = false :=
      not_event_of_never List.suffix_rfl never
    show io.rx.rpos = 0
    simp only [strands, again, full, Bool.not_false, Bool.and_true, decide_true, Bool.true_and,
      decide_eq_false_iff_not, not_not] at kept
    exact kept

/-- Teardown touches neither RX nor the phase. -/
theorem Level.torn {c : Conn T P} (level : Level c) : Level (c.teardown N) where
  ok := (Conn.teardown_unread N (fun _ _ => rfl) (fun _ _ => rfl) (fun _ _ _ => rfl) _).trans level.ok
  early early := by
    rw [Conn.teardown_state] at early
    rw [Conn.teardown_rx]
    exact level.early early
  polling polls idle full := by
    rw [Conn.teardown_state] at polls
    rw [Conn.teardown_rx] at full ⊢
    refine level.polling polls ?_ full
    exact (Conn.teardown_unread N (fun _ _ => rfl) (fun _ _ => rfl) (fun _ _ _ => rfl) c).symm.trans idle

theorem Step.level {c c' : Conn T P} (step : Step N c c') (fills : T.Fills)
    (buffered : Buffered c) (never : occurs strands c'.history = false) (level : Level c) :
    Level c' := by
  have finished : ∀ {c : Conn T P} {s : State}, overflowOk c.history = true → 4 < s.rank →
      Level ((c.assign s).teardown N) := by
    intro c s ok late
    have assigned : Level (c.assign s) := level_late ok late
    exact assigned.torn
  have late : ∀ s : State, 4 < s.rank → Level (c.assign s) := fun s late =>
    level_late level.ok late
  have empty : c.state = .uninitialized ∨ c.state = .inProgress ∨ c.state = .transport →
      c.rx.wpos = 0 := by
    intro early
    apply level.early
    rcases early with state | state | state <;> rw [state] <;> decide
  cases step with
  | overflow reading full attentive =>
      refine finished (c := c.log (.overflow c.rx)) ?_ (by decide)
      exact Bool.and_eq_true_iff.mpr ⟨level.overflows buffered.rx full attentive, level.ok⟩
  | read status e rx w reading room answered =>
      obtain ⟨start, grown⟩ := fills answered buffered.rx
      exact level.read reading room buffered.rx start grown
  | handler kind f status s io w handles => exact level.handled handles.polls never
  | attach | restart =>
      refine level_of_empty ?_ rfl
      exact (Conn.dial_unread N (fun _ _ _ => rfl) (fun _ _ _ => rfl) _).trans level.ok
  | dialFailed => exact late .error (by decide)
  | dialPending fresh => exact level_of_empty level.ok (empty (.inl fresh))
  | initFailed w _ held =>
      refine level_late ?_ (by rw [Conn.initFailed_state]; decide)
      exact (Conn.initFailed_unread N (f := overflowOk) (fun _ _ => rfl) (fun _ _ _ => rfl) w held).trans
        level.ok
  | initHandshake e w fresh => exact level_of_empty level.ok (empty (fresh.imp_right .inl))
  | initPlain e w fresh => exact level_of_empty level.ok (empty (fresh.imp_right .inl))
  | enterProtocol shaking => exact level_of_empty level.ok (empty (.inr (.inr shaking)))
  | refused ret err w => exact finished (c := c.polled ret err w) level.ok (by decide)
  | dropped | fail => exact finished level.ok (by decide)
  | finish | stop => exact finished level.ok (by decide)
  | closeProtocol running =>
      refine ⟨level.ok, fun early => ?_, fun _ => level.polling (by rw [running]; rfl)⟩
      simp [Conn.assign, State.rank] at early
  | drainProtocol => exact late .drainProtocol (by decide)
  | closeTransport => exact late .closeTransport (by decide)
  | clearRx => exact level_of_empty level.ok rfl
  | _ => exact level.logged rfl rfl rfl rfl rfl

/-- **RX overflows only when it is full.**  In every run in which no handler is done with
RX while unread bytes are at the end of the array behind consumed ones, whenever `transport_read` takes
the overflow branch in `protocol` or `close_protocol`, RX holds RX_CAP unread bytes: over any
transport that stays within its window and only appends, and for any session that keeps its
buffers valid. -/
theorem overflow_genuine (transport : T.Within) (fills : T.Fills) (protocol : P.Within) (fuel : Nat)
    (entries : List Entry) (host : String) (port : UInt16) (tc : T.Config) (pc : P.Config) (w : ω) :
    let run := (exec N fuel entries).exec (Conn.make host port tc pc w : Conn T P)
    occurs strands run.2.history = false → overflowOk run.2.history = true := by
  intro run never
  have keeps : ∀ c c' : Conn T P, Step N c c' →
      Buffered c ∧ (occurs strands c.history = false → Level c) →
      Buffered c' ∧ (occurs strands c'.history = false → Level c') := by
    rintro c c' step ⟨buffered, level⟩
    refine ⟨step.buffered transport protocol buffered, fun never => ?_⟩
    exact step.level fills buffered never (level (never_of_suffix step.suffix never))
  have start : Buffered (Conn.make host port tc pc w : Conn T P) ∧
      (occurs strands (Conn.make host port tc pc w : Conn T P).history = false →
        Level (Conn.make host port tc pc w : Conn T P)) :=
    ⟨make_buffered host port tc pc w, fun _ => level_of_empty rfl rfl⟩
  have torn : ∀ c : Conn T P, Buffered c ∧ (occurs strands c.history = false → Level c) →
      Buffered ((c.log (.enter .destruct)).teardown N) ∧
        (occurs strands ((c.log (.enter .destruct)).teardown N).history = false →
          Level ((c.log (.enter .destruct)).teardown N)) := by
    rintro c ⟨buffered, level⟩
    refine ⟨buffered.destructed, fun never => ?_⟩
    have logged : Level (c.log (.enter .destruct)) :=
      (level (never_of_suffix (Conn.destruct_suffix N c) never)).logged rfl rfl rfl rfl rfl
    exact logged.torn
  have reached : Reached N _ entries run.1 run.2 :=
    exec_reached fuel entries (make_rest host port tc pc w)
  exact ((reached.invariant keeps torn start).2 never).ok

/-- A transport that always has as many bytes as fit. -/
def torrent : Transport.Layer ω where
  Config := Unit
  Endpoint := Unit
  blank := ()
  init _ _ w := (some (), w)
  handshakeStep := none
  read e rx w := some (.ok, e, rx.incWpos rx.wsize, w)
  write e tx w := some (.wantWrite, e, tx, w)
  shutdownStep := none
  destroy e w := (e, w)

/-- A session that consumes every complete frame of `size` bytes. -/
def framed (size : Nat) : Protocol.Layer ω where
  Config := Unit
  Session := Unit
  session _ _ _ := ()
  onConnect := none
  onData s io w := some (.ok, s, { io with rx := io.rx.incRpos (io.rx.rsize / size * size) }, w)
  onShutdown := none
  heartbeat := none
  teardown := none

theorem torrent_within : (torrent : Transport.Layer ω).Within where
  read answered valid := by
    cases answered
    exact Buffer.incWpos_valid rx_small valid (Nat.le_refl _)
  write answered valid := by
    cases answered
    exact valid

theorem torrent_fills : (torrent : Transport.Layer ω).Fills := by
  intro e rx w status e' rx' w' answered valid
  cases answered
  exact ⟨rfl, Buffer.wpos_le_incWpos rx_small valid (Nat.le_refl _)⟩

theorem framed_within (size : Nat) : (framed size : Protocol.Layer ω).Within where
  onConnect f declared := by cases declared
  onData answered valid := by
    cases answered
    exact ⟨Buffer.incRpos_valid rx_small valid.rx (Nat.div_mul_le_self _ _), valid.tx⟩
  onShutdown f declared := by cases declared
  heartbeat f declared := by cases declared

/-- A frame that does not fit: RX overflows, and is full. -/
theorem overflow_genuine_oversized :
    let run := (exec scripted 9 [.attach 1, .handleEvent arrival]).exec
      (Conn.make "host" 80 () () {} : Conn torrent (framed (2 * RX_CAP)))
    run.2.state = .error ∧ run.2.rx.rsize = RX_CAP ∧ overflowOk run.2.history = true := by
  intro run
  have never : occurs strands run.2.history = false := by decide +kernel
  exact ⟨by decide +kernel, by decide +kernel, overflow_genuine (N := scripted) torrent_within
    torrent_fills (framed_within _) 9 [.attach 1, .handleEvent arrival] "host" 80 () () {} never⟩

/-- Frames of three bytes, of which the first of the last one is at the end of the array: RX
overflows with one byte unread. -/
theorem overflow_spurious :
    let run := (exec scripted 9 [.attach 1, .handleEvent arrival]).exec
      (Conn.make "host" 80 () () {} : Conn torrent (framed 3))
    run.1 = some () ∧ run.2.state = .error ∧ run.2.rx.rsize = 1 ∧
      overflowOk run.2.history = false := by
  decide +kernel

end Manet.Reactor
