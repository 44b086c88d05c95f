/-
# Manet.Reactor.Conservation — every byte is accounted for

The history of an epoch tells which bytes the transport put into RX and the handlers took out of
it, and which bytes the handlers put into TX and the transport took out of it (`ledger`).  Over a
transport that appends what it received and takes from the front of what it is offered, and a
session that uses its windows, the books balance at every step: what was queued is what was sent
and what is in TX, and as long as the session is fed, what was received is what it consumed and
what is in RX.  So no byte is lost, sent twice, reordered or carried over from an earlier epoch,
whatever the schedule, and whatever the partial reads and writes are.

Behind the session the books are no longer kept for RX: `drain_protocol` throws away what it
reads.
-/
import Manet.Reactor.Retry
import Manet.Reactor.Streams
import Manet.Reactor.Worlds

namespace Manet.Reactor

open Manet.Flow Manet.Net Relation

set_option autoImplicit false

/-- The four streams of an epoch. -/
structure Ledger where
  /-- By the transport, into RX. -/
  received : List UInt8 := []
  /-- By the handlers, out of RX. -/
  consumed : List UInt8 := []
  /-- By the handlers, into TX. -/
  queued : List UInt8 := []
  /-- By the transport, out of TX. -/
  sent : List UInt8 := []

namespace Ledger

def post (l : Ledger) : Act → Ledger
  | .read _ before after => { l with received := l.received ++ before.appended after }
  | .write _ before after => { l with sent := l.sent ++ before.removed after }
  | .handler _ _ before after =>
      { l with
        consumed := l.consumed ++ before.rx.removed after.rx
        queued := l.queued ++ before.tx.appended after.tx }
  | .heartbeat before after => { l with queued := l.queued ++ before.appended after }
  | _ => l

/-- Nothing was sent that had not been queued, nor consumed that had not been received. -/
structure Honest (l : Ledger) : Prop where
  sent : l.sent <+: l.queued
  consumed : l.consumed <+: l.received

theorem honest_empty : ({} : Ledger).Honest := ⟨List.prefix_rfl, List.prefix_rfl⟩

end Ledger

/-- The books of the epoch. -/
def ledger : History → Ledger
  | [] => {}
  | (_, .begin) :: _ => {}
  | (_, act) :: h => (ledger h).post act

/-- The books were honest at every moment, in every epoch. -/
def HonestAlways (h : History) : Prop := ∀ older, older <:+ h → (ledger older).Honest

theorem honestAlways_cons {entry : State × Act} {h : History} :
    HonestAlways (entry :: h) ↔ (ledger (entry :: h)).Honest ∧ HonestAlways h := by
  constructor
  · intro always
    refine ⟨always _ List.suffix_rfl, ?_⟩
    intro older suffix
    exact always older (suffix.trans (List.suffix_cons _ _))
  · rintro ⟨now, before⟩ older suffix
    rcases List.suffix_cons_iff.mp suffix with rfl | earlier
    · exact now
    · exact before older earlier

/-- An act that moves no bytes. -/
theorem honestAlways_skip {entry : State × Act} {h : History}
    (still : ledger (entry :: h) = ledger h) : HonestAlways (entry :: h) = HonestAlways h := by
  apply propext
  rw [honestAlways_cons, still]
  exact and_iff_right_of_imp fun always => always h List.suffix_rfl

section Generic

variable {ω : Type} {N : Backend ω} {T : Transport.Layer ω} {P : Protocol.Layer ω}

/-- The books balance with the buffers. -/
structure Balanced (c : Conn T P) : Prop where
  output : (ledger c.history).sent ++ c.tx.rbuf = (ledger c.history).queued
  input : c.state.rank < 5 →
    (ledger c.history).consumed ++ c.rx.rbuf = (ledger c.history).received
  fresh : c.state.rank < 3 → (ledger c.history).received = []
  past : HonestAlways c.history

/-- A step that moves no bytes, and does not go back. -/
theorem Balanced.still {c c' : Conn T P} (balanced : Balanced c) (rx : c'.rx = c.rx)
    (tx : c'.tx = c.tx) (books : ledger c'.history = ledger c.history)
    (past : HonestAlways c'.history = HonestAlways c.history)
    (onward : c.state.rank ≤ c'.state.rank ∨ 5 ≤ c'.state.rank) : Balanced c' where
  output := by rw [books, tx]; exact balanced.output
  input early := by rw [books, rx]; exact balanced.input (by omega)
  fresh early := by rw [books]; exact balanced.fresh (by omega)
  past := past ▸ balanced.past

theorem Balanced.logged {c : Conn T P} (balanced : Balanced c) {act : Act}
    (still : ledger ((c.state, act) :: c.history) = ledger c.history) : Balanced (c.log act) :=
  balanced.still rfl rfl still (honestAlways_skip still) (.inl (Nat.le_refl _))

theorem Balanced.assigned {c : Conn T P} (balanced : Balanced c) {s : State}
    (onward : c.state.rank ≤ s.rank ∨ 5 ≤ s.rank) : Balanced (c.assign s) :=
  balanced.still rfl rfl rfl (honestAlways_skip rfl) onward

theorem Balanced.torn {c : Conn T P} (balanced : Balanced c) : Balanced (c.teardown N) := by
  refine balanced.still (Conn.teardown_rx N c) (Conn.teardown_tx N c) ?_ ?_ ?_
  · exact Conn.teardown_unread N (fun _ _ => rfl) (fun _ _ => rfl) (fun _ _ _ => rfl) c
  · exact Conn.teardown_unread N (fun _ _ => honestAlways_skip rfl)
      (fun _ _ => honestAlways_skip rfl) (fun _ _ _ => honestAlways_skip rfl) c
  · exact .inl (Nat.le_of_eq (by rw [Conn.teardown_state]))

theorem Balanced.failed {c : Conn T P} (balanced : Balanced c) : Balanced (c.enterError N) :=
  (balanced.assigned (s := .error) (.inr (by decide))).torn

theorem Balanced.notInit {c : Conn T P} (balanced : Balanced c) (w : ω) (held : c.fd ≠ -1) :
    Balanced (c.initFailed N w) := by
  refine balanced.still (Conn.initFailed_rx N c w) (Conn.initFailed_tx N c w) ?_ ?_ ?_
  · exact Conn.initFailed_unread N (f := ledger) (fun _ _ => rfl) (fun _ _ _ => rfl) w held
  · rw [Conn.initFailed_unread N (f := HonestAlways) (fun _ _ => honestAlways_skip rfl)
      (fun _ _ _ => honestAlways_skip rfl) w held]
    exact (honestAlways_skip rfl).trans (honestAlways_skip rfl)
  · rw [Conn.initFailed_state]
    exact .inr (by decide)

/-- A new epoch has new books. -/
theorem balanced_dialed {c : Conn T P} (past : HonestAlways c.history) :
    Balanced (c.begin.dial N).2 := by
  have books : ledger (c.begin.dial N).2.history = {} :=
    Conn.dial_unread N (fun _ _ _ => rfl) (fun _ _ _ => rfl) c.begin
  have empty : ∀ {cap : Nat} (b : Buffer cap), b.clear.rbuf = [] := fun b =>
    (Buffer.rbuf_eq_nil_iff _).mpr b.rsize_clear
  refine ⟨?_, fun _ => ?_, fun _ => ?_, ?_⟩
  · rw [books]
    exact empty c.tx
  · rw [books]
    exact empty c.rx
  · rw [books]
  · rw [Conn.dial_unread N (f := HonestAlways) (fun _ _ _ => honestAlways_skip rfl)
      fun _ _ _ => honestAlways_skip rfl]
    exact honestAlways_cons.mpr ⟨Ledger.honest_empty, past⟩

/-- The transport took from the front of TX. -/
theorem Balanced.wrote {c : Conn T P} (balanced : Balanced c) {status : Transport.Status}
    {e : T.Endpoint} {tx : Buffer TX_CAP} {w : ω} (taken : tx.rbuf <:+ c.tx.rbuf) :
    Balanced (c.didWrite status e tx w) := by
  have output : (ledger c.history).sent ++ c.tx.removed tx ++ tx.rbuf = (ledger c.history).queued := by
    rw [List.append_assoc, Buffer.removed_append taken]
    exact balanced.output
  refine ⟨output, balanced.input, balanced.fresh, honestAlways_cons.mpr ⟨⟨?_, ?_⟩, balanced.past⟩⟩
  · exact ⟨_, output⟩
  · exact (balanced.past c.history List.suffix_rfl).consumed

/-- The transport appended to RX. -/
theorem Balanced.didRead {c : Conn T P} (balanced : Balanced c) (reading : c.state.reads = true)
    {status : Transport.Status} {e : T.Endpoint} {rx : Buffer RX_CAP} {w : ω}
    (grown : c.rx.rbuf <+: rx.rbuf) : Balanced (c.didRead status e rx w) := by
  have past := balanced.past c.history List.suffix_rfl
  refine ⟨balanced.output, fun early => ?_, fun early => ?_,
    honestAlways_cons.mpr ⟨⟨past.sent, ?_⟩, balanced.past⟩⟩
  · show (ledger c.history).consumed ++ rx.rbuf = (ledger c.history).received ++ c.rx.appended rx
    rw [← balanced.input early, List.append_assoc, Buffer.append_appended grown]
  · have late := State.rank_of_flows (State.flows_of_reads reading)
    exact absurd early (Nat.not_lt.mpr late)
  · exact past.consumed.trans (List.prefix_append _ _)

/-- A handler took from the front of RX and appended to TX. -/
theorem Balanced.handled {c : Conn T P} (balanced : Balanced c) (fed : c.state.polls = true)
    {kind : Protocol.HandlerKind} {status : Protocol.Status} {s : P.Session} {io : Io} {w : ω}
    (taken : io.rx.rbuf <:+ c.rx.rbuf) (grown : c.tx.rbuf <+: io.tx.rbuf) :
    Balanced (c.handled kind status s io w) := by
  obtain ⟨late, early⟩ := State.rank_of_polls fed
  have output : (ledger c.history).sent ++ io.tx.rbuf =
      (ledger c.history).queued ++ c.tx.appended io.tx := by
    rw [← balanced.output, List.append_assoc, Buffer.append_appended grown]
  have input : (ledger c.history).consumed ++ c.rx.removed io.rx ++ io.rx.rbuf =
      (ledger c.history).received := by
    rw [List.append_assoc, Buffer.removed_append taken]
    exact balanced.input (by omega)
  refine ⟨output, fun _ => input, fun fresh => absurd fresh (Nat.not_lt.mpr late),
    honestAlways_cons.mpr ⟨⟨?_, ?_⟩, balanced.past⟩⟩
  · exact ⟨_, output⟩
  · exact ⟨_, input⟩

theorem Balanced.beaten {c : Conn T P} (balanced : Balanced c) {s : P.Session}
    {tx : Buffer TX_CAP} {w : ω} (grown : c.tx.rbuf <+: tx.rbuf) : Balanced (c.beaten s tx w) := by
  have output : (ledger c.history).sent ++ tx.rbuf =
      (ledger c.history).queued ++ c.tx.appended tx := by
    rw [← balanced.output, List.append_assoc, Buffer.append_appended grown]
  refine ⟨output, balanced.input, balanced.fresh, honestAlways_cons.mpr ⟨⟨?_, ?_⟩, balanced.past⟩⟩
  · exact ⟨_, output⟩
  · exact (balanced.past c.history List.suffix_rfl).consumed

/-- **No step loses a byte.** -/
theorem Step.balanced {c c' : Conn T P} (step : Step N c c') (appends : T.Appends)
    (drains : T.Drains) (uses : P.Uses) (buffered : Buffered c) (balanced : Balanced c) :
    Balanced c' := by
  have valid : Io.Valid ⟨c.rx, c.tx⟩ := ⟨buffered.rx, buffered.tx⟩
  cases step with
  | read status e rx w reading room answered =>
      obtain ⟨bytes, fits, wrote⟩ := appends answered buffered.rx
      apply balanced.didRead reading
      rw [wrote, Buffer.rbuf_write rx_small buffered.rx fits]
      exact List.prefix_append _ _
  | write status e tx w flowing held unsent answered =>
      obtain ⟨n, inside, dropped⟩ := drains answered buffered.tx
      apply balanced.wrote
      rw [dropped, Buffer.rbuf_incRpos tx_small buffered.tx inside]
      exact List.drop_suffix n _
  | handler kind f status s io w handles answered =>
      have used := handles.uses uses answered
      exact balanced.handled handles.polls (used.consumes valid) (used.appends valid).2
  | heartbeat f s tx w declared running answered =>
      have used := uses.heartbeat f declared answered c.rx
      exact balanced.beaten (used.appends valid).2
  | attach k =>
      have logged : Balanced (c.log (.enter (.attach k))) := balanced.logged rfl
      exact balanced_dialed (c := { c.log (.enter (.attach k)) with cookie := k }) logged.past
  | restart => exact balanced_dialed (c := c.renew) balanced.past
  | dialFailed => exact balanced.assigned (.inr (by decide))
  | dialPending fresh =>
      have waiting : Balanced (c.assign .inProgress) :=
        balanced.assigned (.inl (by rw [fresh]; decide))
      exact waiting.still rfl rfl rfl (honestAlways_skip rfl) (.inl (Nat.le_refl _))
  | initFailed w fresh held => exact balanced.notInit w held
  | initHandshake e w fresh =>
      have made : Balanced (c.log (.init true)) := balanced.logged rfl
      have onward : c.state.rank ≤ State.rank .transport := by
        rcases fresh with fresh | fresh <;> rw [fresh] <;> decide
      exact (made.assigned (.inl onward)).still rfl rfl rfl rfl (.inl (Nat.le_refl _))
  | initPlain e w fresh =>
      have made : Balanced (c.log (.init true)) := balanced.logged rfl
      have heard : Balanced ((c.log (.init true)).log (.net (.subscribe c.fd true false))) :=
        made.logged rfl
      have onward : c.state.rank ≤ State.rank .protocol := by
        rcases fresh with fresh | fresh <;> rw [fresh] <;> decide
      exact (heard.assigned (.inl onward)).still rfl rfl rfl rfl (.inl (Nat.le_refl _))
  | refused ret err w =>
      have polled : Balanced (c.polled ret err w) :=
        balanced.still rfl rfl rfl (honestAlways_skip rfl) (.inl (Nat.le_refl _))
      exact polled.failed
  | overflow =>
      have logged : Balanced (c.log (.overflow c.rx)) := balanced.logged rfl
      exact logged.failed
  | dropped | fail => exact balanced.failed
  | finish | stop => exact (balanced.assigned (s := .closed) (.inr (by decide))).torn
  | enterProtocol shaking => exact balanced.assigned (.inl (by rw [shaking]; decide))
  | closeProtocol running => exact balanced.assigned (.inl (by rw [running]; decide))
  | drainProtocol | closeTransport => exact balanced.assigned (.inr (by decide))
  | clearRx unfed =>
      -- bytes are thrown away only where the session is not fed any more, or not yet
      have empty : c.rx.clear.rbuf = [] := (Buffer.rbuf_eq_nil_iff _).mpr c.rx.rsize_clear
      refine ⟨balanced.output, fun early => ?_, balanced.fresh, balanced.past⟩
      have young : c.state.rank < 3 := by
        have early' : c.state.rank < 5 := early
        revert unfed early'
        cases c.state <;> decide
      have none := balanced.input early
      rw [balanced.fresh young] at none
      show (ledger c.history).consumed ++ c.rx.clear.rbuf = (ledger c.history).received
      rw [empty, balanced.fresh young, (List.append_eq_nil_iff.mp none).1]
      rfl
  | _ => exact balanced.still rfl rfl rfl (honestAlways_skip rfl) (.inl (Nat.le_refl _))

theorem Balanced.destructed {c : Conn T P} (balanced : Balanced c) :
    Balanced ((c.log (.enter .destruct)).teardown N) := by
  have logged : Balanced (c.log (.enter .destruct)) := balanced.logged rfl
  exact logged.torn

theorem make_balanced (host : String) (port : UInt16) (tc : T.Config) (pc : P.Config) (w : ω) :
    Balanced (Conn.make host port tc pc w : Conn T P) where
  output := rfl
  input _ := rfl
  fresh _ := rfl
  past older suffix := by
    rw [List.suffix_nil.mp suffix]
    exact Ledger.honest_empty

theorem exec_balanced (transport : T.Within) (appends : T.Appends) (drains : T.Drains)
    (uses : P.Uses) (fuel : Nat) (entries : List Entry) (host : String) (port : UInt16)
    (tc : T.Config) (pc : P.Config) (w : ω) :
    let c := ((exec N fuel entries).exec (Conn.make host port tc pc w : Conn T P)).2
    Buffered c ∧ Balanced c := by
  have reached := exec_reached (N := N) fuel entries
    (make_rest host port tc pc w : Rest (Conn.make host port tc pc w : Conn T P))
  have keeps : ∀ c c' : Conn T P, Step N c c' → Buffered c ∧ Balanced c → Buffered c' ∧ Balanced c' :=
    fun _ _ step inv =>
      ⟨step.buffered transport uses.within inv.1, step.balanced appends drains uses inv.1 inv.2⟩
  have torn : ∀ c : Conn T P, Buffered c ∧ Balanced c →
      Buffered ((c.log (.enter .destruct)).teardown N) ∧
        Balanced ((c.log (.enter .destruct)).teardown N) :=
    fun _ inv => ⟨inv.1.destructed, inv.2.destructed⟩
  exact reached.invariant keeps torn
    ⟨make_buffered host port tc pc w, make_balanced host port tc pc w⟩

/-- **Every byte is accounted for.**  In every run, over every transport that appends what it
received and takes from the front of what it is offered: what the handlers of this epoch queued
is what was sent and what is in TX, what was received is what they consumed and what is in RX, as
long as they may be called; and at no moment of any epoch had more been sent than queued, or
consumed than received. -/
theorem bytes_conserved (transport : T.Within) (appends : T.Appends) (drains : T.Drains)
    (uses : P.Uses) (fuel : Nat) (entries : List Entry) (host : String) (port : UInt16)
    (tc : T.Config) (pc : P.Config) (w : ω) :
    let c := ((exec N fuel entries).exec (Conn.make host port tc pc w : Conn T P)).2
    (ledger c.history).sent ++ c.tx.rbuf = (ledger c.history).queued ∧
      (c.state.rank < 5 → (ledger c.history).consumed ++ c.rx.rbuf = (ledger c.history).received) ∧
      HonestAlways c.history := by
  intro c
  obtain ⟨-, balanced⟩ := exec_balanced (N := N) transport appends drains uses fuel entries host port
    tc pc w
  exact ⟨balanced.output, balanced.input, balanced.past⟩

end Generic

/-- A session that swaps bytes uses its windows. -/
theorem swapper_uses {ω : Type} : (swapper : Protocol.Layer ω).Uses where
  onConnect f declared := by
    cases declared
    intro s io w status s' io' w' answered
    simp only at answered
    split at answered
    · rename_i fits
      cases answered
      exact Io.uses_write fits
    · cases answered
      exact .done _
  onData := by
    intro s io w status s' io' w' answered
    simp only [swapper] at answered
    split at answered
    · rename_i first second rest unread
      have two : 2 ≤ io.rx.rsize := by
        rw [← Buffer.rbuf_length, unread]
        exact Nat.le_add_left 2 rest.length
      split at answered
      · rename_i fits
        cases answered
        exact .read 2 two (Io.uses_write fits)
      · cases answered
        exact .done _
    · cases answered
      exact .done _
  onShutdown _ declared := by cases declared
  heartbeat _ declared := by cases declared

/-- Three bytes have come in, of which one waits for another, and two of three have gone out. -/
theorem bytes_conserved_pieces :
    let c := ((exec scripted 9 [.attach 1, .handleEvent arrival, .handleEvent arrival]).exec
      (Conn.make "host" 80 () () pieces : Conn (Transport.plain scripted 1) swapper)).2
    (ledger c.history).received = [1, 2, 3] ∧ (ledger c.history).sent = [0x21, 2] ∧
      (ledger c.history).sent ++ c.tx.rbuf = (ledger c.history).queued ∧
      (ledger c.history).consumed ++ c.rx.rbuf = (ledger c.history).received ∧
      HonestAlways c.history := by
  obtain ⟨output, input, past⟩ := bytes_conserved (N := scripted) (P := swapper)
    (Transport.plain_within scripted_bounded 1) (Transport.plain_appends scripted_bounded 1)
    (Transport.plain_drains scripted_bounded 1) swapper_uses 9
    [.attach 1, .handleEvent arrival, .handleEvent arrival] "host" 80 () () pieces
  exact ⟨by decide +kernel, by decide +kernel, output, input (by decide +kernel), past⟩

/-! ## On the wire -/

section Wire

variable {ω : Type} {N : Backend ω} {retries : Nat} {P : Protocol.Layer (ω × Tape)}

def Ledger.tape (l : Ledger) : Tape := ⟨l.received, l.sent⟩

/-- The tape is the same. -/
def SameTape (w w' : ω × Tape) : Prop := w'.2 = w.2

instance : IsPreorder (ω × Tape) SameTape where
  refl _ := rfl
  trans _ _ _ first second := second.trans first

/-- The books agree with the tape of the network. -/
def Taping (c : Taped N retries P) : Prop := c.world.2 = (ledger c.history).tape

section Keeps

variable (leaves : P.Respects SameTape) {c : Taped N retries P}
include leaves

theorem Taping.torn (taping : Taping c) : Taping (c.teardown (traced N)) := by
  unfold Taping
  rw [Conn.teardown_unread (traced N) (f := ledger) (fun _ _ => rfl) (fun _ _ => rfl)
    (fun _ _ _ => rfl) c]
  have session : SameTape c.world c.sessionTeardown.world := sessionTeardown_respects leaves c
  unfold Conn.teardown
  split
  · exact session.trans taping
  · exact taping

theorem Taping.failed (taping : Taping c) : Taping (c.enterError (traced N)) :=
  Taping.torn leaves (c := c.assign .error) taping

end Keeps

theorem taping_dialed (c : Taped N retries P) : Taping (c.begin.dial (traced N)).2 := by
  unfold Taping
  rw [Conn.dial_unread (traced N) (f := ledger) (fun _ _ _ => rfl) (fun _ _ _ => rfl) c.begin]
  exact dial_tape N c.host c.port c.world

/-- The tape is written where the books are. -/
theorem Step.tapes {c c' : Taped N retries P} (step : Step (traced N) c c')
    (bounded : Transport.Bounded N) (leaves : P.Respects SameTape) (buffered : Buffered c)
    (taping : Taping c) : Taping c' := by
  have polled : ∀ {ret err w}, (traced N).getsockopt c.fd c.world = ((ret, err), w) →
      w.2 = c.world.2 := by
    intro ret err w answered
    exact (congrArg (fun result => result.2.2) answered).symm
  cases step with
  | read status e rx w reading room answered =>
      obtain ⟨bytes, fits, rfl, tape⟩ := plainRead_tape bounded buffered.rx answered
      show w.2 = Tape.mk ((ledger c.history).received ++ c.rx.appended (c.rx.write bytes)) _
      rw [tape, taping, Buffer.appended_write rx_small buffered.rx fits]
      rfl
  | write status e tx w flowing held unsent answered =>
      obtain ⟨n, inside, rfl, tape⟩ := plainWrite_tape bounded buffered.tx answered
      have taken : c.tx.removed (c.tx.incRpos n) = c.tx.rbuf.take n := by
        rw [Buffer.removed, Buffer.rsize_incRpos tx_small buffered.tx inside,
          Nat.sub_sub_self inside]
      show w.2 = Tape.mk _ ((ledger c.history).sent ++ c.tx.removed (c.tx.incRpos n))
      rw [tape, taping, taken]
      rfl
  | handler kind f status s io w handles answered =>
      have same : SameTape c.world w := handles.respects leaves answered
      exact same.trans taping
  | heartbeat f s tx w declared running answered =>
      have same : SameTape c.world w := leaves.heartbeat f declared answered
      exact same.trans taping
  | attach k => exact taping_dialed { c.log (.enter (.attach k)) with cookie := k }
  | restart => exact taping_dialed c.renew
  | initFailed w fresh held failed =>
      cases failed
  | initHandshake e w fresh held made =>
      cases made
      exact taping
  | initPlain e w fresh held made =>
      cases made
      exact taping
  | polled ret err w waiting answered => exact (polled answered).trans taping
  | refused ret err w waiting answered =>
      have polled : Taping (c.polled ret err w) := (polled answered).trans taping
      exact polled.failed leaves
  | handshake f _ _ _ declared => cases declared
  | shutdown f _ _ _ declared => cases declared
  | overflow =>
      have logged : Taping (c.log (.overflow c.rx)) := taping
      exact logged.failed leaves
  | dropped | fail => exact taping.failed leaves
  | finish | stop => exact Taping.torn leaves (c := c.assign .closed) taping
  | _ => exact taping

/-- **What goes over the wire is what was queued.**  In every run over the plain transport, what
`net_write` has accepted since the dial and what is in TX are what the handlers queued, and as
long as they may be called, what they consumed and what is in RX are what `net_read` has
returned. -/
theorem wire_conserved (bounded : Transport.Bounded N) (uses : P.Uses) (leaves : P.Respects SameTape)
    (retries fuel : Nat) (entries : List Entry) (host : String) (port : UInt16) (pc : P.Config) (w : ω) :
    let c : Taped N retries P := ((exec (traced N) fuel entries).exec
      (Conn.make host port () pc (w, {}) : Taped N retries P)).2
    c.world.2.accepted ++ c.tx.rbuf = (ledger c.history).queued ∧
      (c.state.rank < 5 → (ledger c.history).consumed ++ c.rx.rbuf = c.world.2.received) := by
  intro c
  have reached := exec_reached (N := traced N) fuel entries
    (make_rest (T := Transport.plain (traced N) retries) (P := P) host port () pc (w, {}))
  let inv (c : Taped N retries P) : Prop := Buffered c ∧ Balanced c ∧ Taping c
  have bounded' := traced_bounded bounded
  have keeps : ∀ c c' : Taped N retries P, Step (traced N) c c' → inv c → inv c' := by
    rintro c c' step ⟨buffered, balanced, taping⟩
    refine ⟨?_, ?_, step.tapes bounded leaves buffered taping⟩
    · exact step.buffered (Transport.plain_within bounded' retries) uses.within buffered
    · exact step.balanced (Transport.plain_appends bounded' retries)
        (Transport.plain_drains bounded' retries) uses buffered balanced
  have torn : ∀ c : Taped N retries P, inv c → inv ((c.log (.enter .destruct)).teardown (traced N)) := by
    rintro c ⟨buffered, balanced, taping⟩
    have logged : Taping (c.log (.enter .destruct)) := taping
    exact ⟨buffered.destructed, balanced.destructed, logged.torn leaves⟩
  have start : inv (Conn.make host port () pc (w, {})) := by
    refine ⟨make_buffered host port _ pc (w, {}), make_balanced host port _ pc (w, {}), rfl⟩
  obtain ⟨-, balanced, taping⟩ := reached.invariant keeps torn start
  rw [show c.world.2 = (ledger c.history).tape from taping]
  exact ⟨balanced.output, balanced.input⟩

end Wire

theorem swapper_leaves {ω : Type} : (swapper : Protocol.Layer (ω × Tape)).Respects SameTape where
  onConnect f declared := by
    cases declared
    intro s io w status s' io' w' answered
    simp only at answered
    split at answered <;> cases answered <;> rfl
  onData := by
    intro s io w status s' io' w' answered
    simp only [swapper] at answered
    split at answered
    · split at answered <;> cases answered <;> rfl
    · cases answered
      rfl
  onShutdown _ declared := by cases declared
  heartbeat _ declared := by cases declared
  teardown _ declared := by cases declared

/-- The network has taken two of the three bytes that were queued. -/
theorem wire_conserved_pieces :
    let c : Taped scripted 1 swapper :=
      ((exec (traced scripted) 9 [.attach 1, .handleEvent arrival, .handleEvent arrival]).exec
        (Conn.make "host" 80 () () (pieces, {}))).2
    c.world.2.accepted = [0x21, 2] ∧ c.world.2.accepted ++ c.tx.rbuf = (ledger c.history).queued ∧
      (ledger c.history).consumed ++ c.rx.rbuf = c.world.2.received := by
  obtain ⟨output, input⟩ := wire_conserved (N := scripted) scripted_bounded swapper_uses
    swapper_leaves 1 9 [.attach 1, .handleEvent arrival, .handleEvent arrival] "host" 80 () pieces
  exact ⟨by decide +kernel, output, input (by decide +kernel)⟩

end Manet.Reactor
