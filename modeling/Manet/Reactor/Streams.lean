/-
# Manet.Reactor.Streams — the byte streams do not depend on the schedule

A protocol is a stream transformer when its handlers are functions of the session and
the unread bytes (`Streaming`): what `on_connect` says, and what `on_data` takes and
says.  Draining all that was received in one piece (`Manet.Flow.drain`) is then what the
connection is for.

Over the plain transport and a recorded network (`Manet.Net.traced`), however the events
come, the stream is cut and writes are accepted: what was accepted and what is unsent
together are the greeting and the output of that drain, and what is unread is its rest
(`streams_agree`).  The proof follows, one step at a time, where in that drain the
connection is: nothing said yet, a handler due, or settled (`Streamed`).
-/
import Manet.Flow.Consumer
import Manet.Net.Tape
import Manet.Reactor.Windows

namespace Manet.Reactor

open Manet.Flow Manet.Net Relation

set_option autoImplicit false

/-! ## Staying in `protocol` -/

/-- `protocol` was entered in this epoch. -/
def engaged : History → Bool
  | [] => false
  | (_, .begin) :: _ => false
  | (_, .assign .protocol) :: _ => true
  | _ :: h => engaged h

/-- `heartbeat` was called in this epoch. -/
def beats : History → Bool
  | [] => false
  | (_, .begin) :: _ => false
  | (_, .heartbeat _ _) :: _ => true
  | _ :: h => beats h

/-- RX has overflowed, or a handler has filled TX. -/
def crowds (_ : State) (act : Act) (_ : History) : Bool :=
  match act with
  | .overflow _ => true
  | .handler _ _ _ after => TX_CAP ≤ after.tx.wpos
  | _ => false

/-- The session is fed and nothing has come in between since the dial: every handler has answered
`ok`, the connection was not stopped, the transport has not reported the end, no buffer was full. -/
structure Undisturbed (h : History) : Prop where
  fed : engaged h = true
  staying : leaving h = false
  whole : lately cuts h = false
  room : lately crowds h = false

/-- An act that does not disturb. -/
theorem undisturbed_skip {s : State} {act : Act} {h : History}
    (fed : engaged ((s, act) :: h) = engaged h) (staying : leaving ((s, act) :: h) = leaving h)
    (whole : lately cuts ((s, act) :: h) = lately cuts h)
    (room : lately crowds ((s, act) :: h) = lately crowds h) :
    Undisturbed ((s, act) :: h) = Undisturbed h := by
  refine propext ⟨fun calm => ?_, fun calm => ?_⟩
  · exact ⟨fed ▸ calm.fed, staying ▸ calm.staying, whole ▸ calm.whole, room ▸ calm.room⟩
  · exact ⟨fed ▸ calm.fed, staying ▸ calm.staying, whole ▸ calm.whole, room ▸ calm.room⟩

theorem Undisturbed.older {s : State} {act : Act} {h : History}
    (calm : Undisturbed ((s, act) :: h)) (fed : engaged ((s, act) :: h) = engaged h)
    (staying : leaving ((s, act) :: h) = false → leaving h = false) : Undisturbed h := by
  have dialed : act ≠ .begin := by
    rintro rfl
    cases calm.fed
  have older : ∀ {event}, lately event ((s, act) :: h) = false → lately event h = false := by
    intro event never
    rw [lately_cons dialed, Bool.or_eq_false_iff] at never
    exact never.2
  exact ⟨fed ▸ calm.fed, staying calm.staying, older calm.whole, older calm.room⟩

section Steady

variable {ω : Type} {N : Backend ω} {T : Transport.Layer ω} {P : Protocol.Layer ω}

/-- An undisturbed connection goes on being fed. -/
def Steady (c : Conn T P) : Prop := Undisturbed c.history → c.state = .protocol

theorem undisturbed_torn (c : Conn T P) :
    Undisturbed (c.teardown N).history = Undisturbed c.history :=
  Conn.teardown_unread N (fun _ _ => undisturbed_skip rfl rfl rfl rfl)
    (fun _ _ => undisturbed_skip rfl rfl rfl rfl) (fun _ _ _ => undisturbed_skip rfl rfl rfl rfl) c

theorem engaged_dialed (c : Conn T P) : engaged (c.begin.dial N).2.history = false :=
  Conn.dial_unread N (fun _ _ _ => rfl) (fun _ _ _ => rfl) c.begin

theorem Step.steady {c c' : Conn T P} (step : Step N c c') (steady : Steady c) : Steady c' := by
  -- a step that leaves `protocol` has a cause that disturbs
  have leaves : ∀ {s : State}, s ≠ .protocol → Undisturbed (c.assign s).history →
      Undisturbed c.history ∧ c.state = .protocol := by
    intro s other calm
    have older : Undisturbed c.history := by
      cases s with
      | protocol => exact absurd rfl other
      | _ => exact calm.older rfl id
    exact ⟨older, steady older⟩
  have ends : ∀ {s : State}, s ≠ .protocol → c.state ≠ .protocol →
      ¬ Undisturbed ((c.assign s).teardown N).history := by
    intro s other outside calm
    rw [undisturbed_torn] at calm
    exact outside (leaves other calm).2
  cases step with
  | enter entry =>
      intro calm
      exact steady (calm.older rfl (staying_older (by simp)))
  | attach | restart =>
      intro calm
      cases (engaged_dialed (N := N) _).symm.trans calm.fed
  | dialFailed fresh =>
      intro calm
      have running := (leaves (by simp) calm).2
      rw [fresh] at running
      cases running
  | dialPending fresh =>
      intro calm
      have running := (leaves (s := .inProgress) (by simp) (calm.older rfl id)).2
      rw [fresh] at running
      cases running
  | initFailed w fresh held =>
      intro calm
      have skip : Undisturbed (c.initFailed N w).history = _ :=
        Conn.initFailed_unread N (fun _ _ => undisturbed_skip rfl rfl rfl rfl)
          (fun _ _ _ => undisturbed_skip rfl rfl rfl rfl) w held
      rw [skip] at calm
      have running := steady ((calm.older rfl id).older rfl id)
      rw [running] at fresh
      rcases fresh with state | state <;> cases state
  | initHandshake e w fresh =>
      intro calm
      have running := steady ((calm.older rfl id).older rfl id)
      rw [running] at fresh
      rcases fresh with state | state <;> cases state
  | initPlain | enterProtocol => exact fun _ => rfl
  | refused ret err w waiting =>
      intro calm
      rw [Conn.enterError, undisturbed_torn] at calm
      have running := steady ((calm.older rfl id).older rfl id)
      rw [waiting] at running
      cases running
  | dropped ev waiting => exact fun calm => absurd calm (ends (by simp) (by simp [waiting]))
  | overflow =>
      intro calm
      rw [Conn.enterError, undisturbed_torn] at calm
      have room := calm.room
      simp [Conn.assign, Conn.log, lately, crowds] at room
  | handler kind f status =>
      intro calm
      exact steady (calm.older rfl (staying_older (by simp)))
  | closeProtocol running word =>
      intro calm
      have staying := (leaves (by simp) calm).1.staying
      rw [word] at staying
      cases staying
  | drainProtocol closing word =>
      intro calm
      obtain ⟨older, running⟩ := leaves (by simp) calm
      have staying := older.staying
      rw [word running] at staying
      cases staying
  | closeTransport closes =>
      intro calm
      obtain ⟨older, running⟩ := leaves (by simp) calm
      cases closes with
      | flushed _ _ word =>
          have staying := older.staying
          rw [word running] at staying
          cases staying
      | severed _ cut =>
          have whole := older.whole
          rw [cut] at whole
          cases whole
      | stopped entered =>
          obtain ⟨h, history⟩ := List.head?_eq_some_iff.mp entered
          have staying := older.staying
          rw [history, running] at staying
          cases staying
      | lost failed =>
          rw [running] at failed
          cases failed
  | fail connected cause =>
      intro calm
      rw [Conn.enterError, undisturbed_torn] at calm
      obtain ⟨older, running⟩ := leaves (by simp) calm
      rcases cause running with word | cut
      · rw [older.staying] at word
        cases word
      · rw [older.whole] at cut
        cases cut
  | finish closing => exact fun calm => absurd calm (ends (by simp) (by simp [closing]))
  | stop early =>
      refine fun calm => absurd calm (ends (by simp) ?_)
      rcases early with ⟨state, -⟩ | state <;> simp [state]
  | clearRx => exact steady
  | _ => exact fun calm => steady (calm.older rfl id)

end Steady

/-! ## Stream transformers -/

section Streaming

variable {ω : Type}

/-- A handler took and said this much. -/
structure Io.Exchanged (io : Io) (taken : Nat) (output : List UInt8) (io' : Io) : Prop where
  valid : io'.Valid
  inside : taken ≤ io.rx.rsize
  unread : io'.rx.rbuf = io.rx.rbuf.drop taken
  unsent : io'.tx.rbuf = io.tx.rbuf ++ output

/-- A protocol whose `on_connect` and `on_data`, as long as they answer `ok` and do not fill TX,
are functions of the session and the unread bytes. -/
structure Streaming (P : Protocol.Layer (ω × Tape)) where
  greet : P.Session → P.Session × List UInt8
  step : P.Session → List UInt8 → Answer P.Session Protocol.Status UInt8
  silent : P.onConnect = none → ∀ s, greet s = (s, [])
  onConnect : ∀ f, P.onConnect = some f → ∀ {s io w s' io' w'}, f s io w = some (.ok, s', io', w') →
    io.Valid → io'.tx.wpos < TX_CAP →
      s' = (greet s).1 ∧ Io.Exchanged io 0 (greet s).2 io' ∧ w'.2 = w.2
  onData : ∀ {s io w s' io' w'}, P.onData s io w = some (.ok, s', io', w') →
    io.Valid → io'.tx.wpos < TX_CAP →
      (step s io.rx.rbuf).verdict = none ∧ s' = (step s io.rx.rbuf).state ∧
        Io.Exchanged io (step s io.rx.rbuf).taken (step s io.rx.rbuf).output io' ∧ w'.2 = w.2

variable {N : Backend ω} {retries : Nat} {P : Protocol.Layer (ω × Tape)}

/-- A recorded connection over the plain transport. -/
abbrev Taped (N : Backend ω) (retries : Nat) (P : Protocol.Layer (ω × Tape)) : Type :=
  Conn (Transport.plain (traced N) retries) P

/-- What has been said since the dial, sent or not. -/
def Conn.said (c : Taped N retries P) : List UInt8 := c.world.2.accepted ++ c.tx.rbuf

/-- Nothing has passed over the connection since the dial. -/
structure Untouched (c : Taped N retries P) : Prop where
  session : c.protocol = c.newSession
  rx : c.rx.Valid ∧ c.rx.rbuf = []
  tx : c.tx.Valid ∧ c.tx.rbuf = []
  tape : c.world.2 = {}

variable (S : Streaming P)

/-- What the session says first, and the state it is then in. -/
def Conn.opening (c : Taped N retries P) : P.Session × List UInt8 := S.greet c.newSession

/-- Draining everything received, in one piece. -/
def Conn.whole (c : Taped N retries P) : Outcome P.Session UInt8 Protocol.Status UInt8 :=
  drain S.step (c.opening S).1 c.world.2.received

/-- How far the connection is in that drain. -/
inductive Streamed (c : Taped N retries P) : Prop where
  | fresh (due : owed P.onConnect.isSome c.history = true) (untouched : Untouched c)
  | due (output : List UInt8) (due : owed P.onConnect.isSome c.history = true)
      (greeted : ∀ s, c.history.head? ≠ some (s, .assign .protocol))
      (rest : c.whole S = (drain S.step c.protocol c.rx.rbuf).after output)
      (said : c.said = (c.opening S).2 ++ output)
  | settled (output : List UInt8) (idle : owed P.onConnect.isSome c.history = false)
      (whole : c.whole S = ⟨none, c.protocol, c.rx.rbuf, output⟩)
      (said : c.said = (c.opening S).2 ++ output)

/-- As long as the session is fed undisturbed, its windows are valid and its streams agree. -/
structure Carried (c : Taped N retries P) : Prop where
  early : c.state.rank < 3 → Untouched c
  fed : c.state = .protocol → leaving c.history = false → lately crowds c.history = false →
    beats c.history = false → Io.Valid ⟨c.rx, c.tx⟩ ∧ Streamed S c

variable {S}

/-- Nothing is claimed of a connection that is leaving. -/
theorem carried_late {c : Taped N retries P} (late : 3 < c.state.rank) : Carried S c where
  early early := by omega
  fed state := by rw [state] at late; exact absurd late (by decide)

/-- The session, the buffers and the tape are the same. -/
structure Alike (c c' : Taped N retries P) : Prop where
  newSession : c'.newSession = c.newSession
  session : c'.protocol = c.protocol
  rx : c'.rx = c.rx
  tx : c'.tx = c.tx
  tape : c'.world.2 = c.world.2

theorem Alike.trans {c c₁ c₂ : Taped N retries P} (first : Alike c c₁) (second : Alike c₁ c₂) :
    Alike c c₂ where
  newSession := second.newSession.trans first.newSession
  session := second.session.trans first.session
  rx := second.rx.trans first.rx
  tx := second.tx.trans first.tx
  tape := second.tape.trans first.tape

theorem alike_assign (c : Taped N retries P) (s : State) : Alike c (c.assign s) :=
  ⟨rfl, rfl, rfl, rfl, rfl⟩

theorem alike_subscribe (c : Taped N retries P) (r w : Bool) : Alike c (c.subscribe (traced N) r w) :=
  ⟨rfl, rfl, rfl, rfl, rfl⟩

theorem alike_initialised (c : Taped N retries P) : Alike c (c.initialised c.fd c.world) :=
  ⟨rfl, rfl, rfl, rfl, rfl⟩

theorem Untouched.alike {c c' : Taped N retries P} (untouched : Untouched c) (alike : Alike c c') :
    Untouched c' where
  session := by rw [alike.session, alike.newSession, untouched.session]
  rx := alike.rx ▸ untouched.rx
  tx := alike.tx ▸ untouched.tx
  tape := alike.tape ▸ untouched.tape

/-- An act in between changes nothing. -/
theorem Streamed.grown {c c' : Taped N retries P} (streamed : Streamed S c) (alike : Alike c c')
    {s : State} {act : Act} (history : c'.history = (s, act) :: c.history)
    (same : owed P.onConnect.isSome ((s, act) :: c.history) = owed P.onConnect.isSome c.history)
    (other : act ≠ .assign .protocol) : Streamed S c' := by
  have said : c'.said = c.said := by simp only [Conn.said, alike.tape, alike.tx]
  have opening : c'.opening S = c.opening S := by simp only [Conn.opening, alike.newSession]
  have whole : c'.whole S = c.whole S := by simp only [Conn.whole, opening, alike.tape]
  cases streamed with
  | fresh due untouched => exact .fresh (by rw [history, same, due]) (untouched.alike alike)
  | due output due _ rest said' =>
      refine .due output (by rw [history, same, due]) ?_ ?_ ?_
      · intro s' head
        rw [history] at head
        cases head
        exact other rfl
      · rw [whole, rest, alike.session, alike.rx]
      · rw [said, said', opening]
  | settled output idle whole' said' =>
      refine .settled output (by rw [history, same, idle]) ?_ ?_
      · rw [whole, whole', alike.session, alike.rx]
      · rw [said, said', opening]

theorem Carried.grown {c c' : Taped N retries P} (carried : Carried S c) (alike : Alike c c')
    (state : c'.state = c.state) {s : State} {act : Act} (history : c'.history = (s, act) :: c.history)
    (same : owed P.onConnect.isSome ((s, act) :: c.history) = owed P.onConnect.isSome c.history)
    (other : act ≠ .assign .protocol)
    (staying : leaving ((s, act) :: c.history) = false → leaving c.history = false)
    (roomy : lately crowds ((s, act) :: c.history) = false → lately crowds c.history = false)
    (unbeaten : beats ((s, act) :: c.history) = beats c.history) : Carried S c' where
  early early := (carried.early (state ▸ early)).alike alike
  fed running staying' room unbeaten' := by
    rw [history] at staying' room unbeaten'
    obtain ⟨valid, streamed⟩ := carried.fed (state ▸ running) (staying staying') (roomy room)
      (unbeaten ▸ unbeaten')
    refine ⟨?_, streamed.grown alike history same other⟩
    rw [alike.rx, alike.tx]
    exact valid

/-- `protocol` is entered on an untouched connection: a greeting is due, or nothing is. -/
theorem Untouched.streamed {c : Taped N retries P} (untouched : Untouched c) {s : State}
    {h : History} (entered : c.history = (s, .assign .protocol) :: h) : Streamed S c := by
  have due : owed P.onConnect.isSome c.history = P.onConnect.isSome := by rw [entered]; rfl
  rcases declared : P.onConnect with _ | f
  · have opening : c.opening S = (c.protocol, []) := by
      rw [untouched.session]
      exact S.silent declared _
    refine .settled [] (by rw [due, declared]; rfl) ?_ ?_
    · rw [Conn.whole, opening, untouched.tape, untouched.rx.2]
      exact drain_nil S.step c.protocol
    · rw [Conn.said, opening, untouched.tape, untouched.tx.2]
  · exact .fresh (by rw [due, declared]; rfl) untouched

theorem Untouched.carried {c : Taped N retries P} (untouched : Untouched c) {s : State}
    {h : History} (entered : c.history = (s, .assign .protocol) :: h) : Carried S c where
  early _ := untouched
  fed _ _ _ _ := ⟨⟨untouched.rx.1, untouched.tx.1⟩, untouched.streamed entered⟩

section Network

variable (bounded : Transport.Bounded N)
include bounded

/-- What is read comes behind what is unread; a settled session is then due. -/
theorem Streamed.read (homomorphic : Homomorphic (fun _ _ => True) S.step) {c : Taped N retries P}
    (valid : c.rx.Valid) (streamed : Streamed S c)
    (idle : owed P.onConnect.isSome c.history = false) {status : Transport.Status} {e : Int}
    {rx : Buffer RX_CAP} {w : ω × Tape}
    (answered : Transport.plainRead (traced N) retries c.transport c.rx c.world =
      some (status, e, rx, w)) :
    rx.Valid ∧ Streamed S (c.didRead status e rx w) := by
  obtain ⟨bytes, fits, wrote, tape⟩ := plainRead_tape bounded valid answered
  have unread : rx.rbuf = c.rx.rbuf ++ bytes := by
    rw [wrote]
    exact Buffer.rbuf_write rx_small valid fits
  refine ⟨wrote ▸ Buffer.write_valid rx_small valid fits, ?_⟩
  cases streamed with
  | fresh due => rw [idle] at due; cases due
  | due _ due => rw [idle] at due; cases due
  | settled output _ whole said =>
      have said' : (c.didRead status e rx w).said = (c.opening S).2 ++ output := by
        rw [← said]
        simp only [Conn.said, Conn.didRead, Conn.log, tape]
      by_cases none : bytes = []
      · subst none
        have same : rx = c.rx := wrote.trans (Buffer.write_nil rx_small valid)
        refine .settled output ?_ ?_ said'
        · rw [same]
          exact (if_pos rfl).trans idle
        · rw [Conn.whole, show (c.didRead status e rx w).world = w from rfl, tape, same]
          simp only [List.append_nil]
          exact whole
      · have more : rx.rsize = c.rx.rsize + bytes.length := by
          rw [← Buffer.rbuf_length, unread, List.length_append, Buffer.rbuf_length]
        have some' : 0 < bytes.length := List.length_pos_iff.mpr none
        have piecewise := homomorphic (c.opening S).1 c.world.2.received bytes trivial
          (congrArg Outcome.verdict whole)
        rw [show drain S.step (c.opening S).1 c.world.2.received = _ from whole] at piecewise
        refine .due output ?_ (by intro s head; cases head) ?_ said'
        · refine (if_neg (by omega)).trans ?_
          simp only [ne_eq, decide_not, Bool.not_eq_true', decide_eq_false_iff_not]
          omega
        · rw [Conn.whole, show (c.didRead status e rx w).world = w from rfl, tape,
            show (c.didRead status e rx w).rx = rx from rfl, unread]
          exact piecewise

/-- What is accepted leaves TX and is on the tape. -/
theorem Streamed.write {c : Taped N retries P} (valid : c.tx.Valid) (streamed : Streamed S c)
    (unsent : c.tx.rsize ≠ 0) {status : Transport.Status} {e : Int} {tx : Buffer TX_CAP}
    {w : ω × Tape}
    (answered : Transport.plainWrite (traced N) retries c.transport c.tx c.world =
      some (status, e, tx, w)) :
    tx.Valid ∧ Streamed S (c.didWrite status e tx w) := by
  obtain ⟨n, inside, dropped, tape⟩ := plainWrite_tape bounded valid answered
  refine ⟨dropped ▸ Buffer.incRpos_valid tx_small valid inside, ?_⟩
  have rest : tx.rbuf = c.tx.rbuf.drop n := by
    rw [dropped]
    exact Buffer.rbuf_incRpos tx_small valid inside
  have same : (c.didWrite status e tx w).said = c.said := by
    simp only [Conn.said, Conn.didWrite, tape, rest, List.append_assoc, List.take_append_drop]
  have whole : (c.didWrite status e tx w).whole S = c.whole S := by
    simp only [Conn.whole, Conn.didWrite, tape]
    rfl
  cases streamed with
  | fresh _ untouched => exact absurd ((Buffer.rbuf_eq_nil_iff _).mp untouched.tx.2) unsent
  | due output due _ rest said =>
      exact .due output due (by intro s head; cases head) (whole.trans rest) (same.trans said)
  | settled output idle whole' said => exact .settled output idle (whole.trans whole') (same.trans said)

end Network

/-- `on_connect` says the greeting. -/
theorem Streamed.greeted {c : Taped N retries P} (valid : Io.Valid ⟨c.rx, c.tx⟩)
    (streamed : Streamed S c) {f : Protocol.Handler P.Session (ω × Tape)}
    (declared : P.onConnect = some f) {s : State}
    (first : c.history.head? = some (s, .assign .protocol)) {s' : P.Session} {io : Io}
    {w : ω × Tape} (room : io.tx.wpos < TX_CAP)
    (answered : f c.protocol ⟨c.rx, c.tx⟩ c.world = some (.ok, s', io, w)) :
    io.Valid ∧ Streamed S (c.handled .onConnect .ok s' io w) := by
  obtain ⟨state, exchanged, tape⟩ := S.onConnect f declared answered valid room
  refine ⟨exchanged.valid, ?_⟩
  cases streamed with
  | due _ _ greeted => exact absurd first (greeted s)
  | settled _ idle =>
      obtain ⟨h, history⟩ := List.head?_eq_some_iff.mp first
      rw [history, declared] at idle
      cases idle
  | fresh _ untouched =>
      have opening : (c.handled .onConnect .ok s' io w).opening S = S.greet c.protocol := by
        rw [untouched.session]
        rfl
      refine .settled [] rfl ?_ ?_
      · have unread : io.rx.rbuf = [] := exchanged.unread.trans (by rw [untouched.rx.2]; rfl)
        rw [Conn.whole, opening, show (c.handled .onConnect .ok s' io w).world = w from rfl, tape,
          untouched.tape]
        simp only [Conn.handled, state, unread, drain_nil]
      · rw [Conn.said, opening, show (c.handled .onConnect .ok s' io w).world = w from rfl, tape,
          untouched.tape, show (c.handled .onConnect .ok s' io w).tx = io.tx from rfl,
          exchanged.unsent, untouched.tx.2]
        simp

/-- `on_data` is one call of the drain. -/
theorem Streamed.consumed {c : Taped N retries P} (valid : Io.Valid ⟨c.rx, c.tx⟩)
    (streamed : Streamed S c) (unread : c.rx.rsize ≠ 0)
    (due : owed P.onConnect.isSome c.history = true) {s' : P.Session} {io : Io}
    {w : ω × Tape} (room : io.tx.wpos < TX_CAP)
    (answered : P.onData c.protocol ⟨c.rx, c.tx⟩ c.world = some (.ok, s', io, w)) :
    io.Valid ∧ Streamed S (c.handled .onData .ok s' io w) := by
  obtain ⟨goesOn, state, exchanged, tape⟩ := S.onData answered valid room
  refine ⟨exchanged.valid, ?_⟩
  have bytes : c.rx.rbuf ≠ [] := fun empty => unread ((Buffer.rbuf_eq_nil_iff _).mp empty)
  cases streamed with
  | fresh _ untouched => exact absurd untouched.rx.2 bytes
  | settled _ idle => rw [due] at idle; cases idle
  | due output _ _ rest said =>
      generalize answer : S.step c.protocol c.rx.rbuf = a at goesOn state exchanged
      have said' : (c.handled .onData .ok s' io w).said = (c.opening S).2 ++ (output ++ a.output) := by
        rw [← List.append_assoc, ← said, Conn.said, Conn.said,
          show (c.handled .onData .ok s' io w).world = w from rfl, tape,
          show (c.handled .onData .ok s' io w).tx = io.tx from rfl, exchanged.unsent,
          List.append_assoc]
      have whole : (c.handled .onData .ok s' io w).whole S = c.whole S := by
        rw [Conn.whole, show (c.handled .onData .ok s' io w).world = w from rfl, tape]
        rfl
      have sizes : io.rx.rsize = c.rx.rsize - a.taken := by
        rw [← Buffer.rbuf_length, exchanged.unread, List.length_drop, Buffer.rbuf_length]
      have inside : a.taken ≤ c.rx.rsize := exchanged.inside
      have goesOn' : (S.step c.protocol c.rx.rbuf).verdict = none := by rw [answer, goesOn]
      by_cases none : a.taken = 0
      · have waits : (S.step c.protocol c.rx.rbuf).waits := ⟨goesOn', by rw [answer, none]⟩
        refine .settled (output ++ a.output) ?_ ?_ said'
        · have same : ¬ io.rx.rsize < c.rx.rsize := by omega
          simp [Conn.handled, Conn.log, owed, same]
        · have untaken : io.rx.rbuf = c.rx.rbuf := by rw [exchanged.unread, none]; rfl
          rw [whole, rest, drain_wait bytes waits, answer]
          simp only [Outcome.after, Conn.handled, state, untaken]
      · have further : (c.handled .onData .ok s' io w).whole S =
            (drain S.step s' io.rx.rbuf).after (output ++ a.output) := by
          rw [whole, rest, drain_more bytes goesOn' (by rw [answer]; exact none), answer,
            Outcome.after_after, state, exchanged.unread]
        by_cases left : io.rx.rsize = 0
        · refine .settled (output ++ a.output) ?_ ?_ said'
          · simp [Conn.handled, Conn.log, owed, left]
          · rw [further, (Buffer.rbuf_eq_nil_iff _).mpr left, drain_nil]
            simp only [Outcome.after, Conn.handled, List.append_nil, (Buffer.rbuf_eq_nil_iff _).mpr left]
        · refine .due (output ++ a.output) ?_ (by intro s head; cases head) further said'
          have less : io.rx.rsize < c.rx.rsize := by omega
          simp [Conn.handled, Conn.log, owed, left, less]

theorem untouched_dialed {c : Taped N retries P} (session : c.protocol = c.newSession) :
    Untouched (c.begin.dial (traced N)).2 where
  session := session
  rx := ⟨c.rx.clear_valid, (Buffer.rbuf_eq_nil_iff _).mpr c.rx.rsize_clear⟩
  tx := ⟨c.tx.clear_valid, (Buffer.rbuf_eq_nil_iff _).mpr c.tx.rsize_clear⟩
  tape := dial_tape N c.host c.port c.world

theorem carried_dialed {c : Taped N retries P} (session : c.protocol = c.newSession) :
    Carried S (c.begin.dial (traced N)).2 where
  early _ := untouched_dialed session
  fed state := by cases state

theorem carried_error (c : Taped N retries P) : Carried S (c.enterError (traced N)) :=
  carried_late (by rw [Conn.enterError_state]; decide)

theorem carried_closed (c : Taped N retries P) : Carried S (c.enterClosed (traced N)) :=
  carried_late (by rw [Conn.enterClosed_state]; decide)

theorem Step.carried {c c' : Taped N retries P} (step : Step (traced N) c c')
    (bounded : Transport.Bounded N) (homomorphic : Homomorphic (fun _ _ => True) S.step)
    (cookie : c.cookie ≠ 0) (carried : Carried S c) : Carried S c' := by
  have late : ∀ {s : State}, 3 < s.rank → Carried S (c.assign s) := fun later =>
    carried_late later
  have early : c.state = .uninitialized ∨ c.state = .inProgress → Untouched c := by
    intro fresh
    refine carried.early ?_
    rcases fresh with state | state <;> rw [state] <;> decide
  cases step with
  | enter entry =>
      exact carried.grown ⟨rfl, rfl, rfl, rfl, rfl⟩ rfl rfl rfl (by simp) (staying_older (by simp)) id rfl
  | attach k unattached => exact absurd unattached cookie
  | restart => exact carried_dialed (c := c.renew) rfl
  | dialFailed | closeProtocol | drainProtocol | closeTransport => exact late (by decide)
  | dialPending fresh =>
      have pending : Untouched ((c.assign .inProgress).subscribe (traced N) false true) :=
        (early (.inl fresh)).alike ((alike_assign c _).trans (alike_subscribe _ _ _))
      exact ⟨fun _ => pending, fun state => by cases state⟩
  | initFailed w => exact carried_late (by rw [Conn.initFailed_state]; decide)
  | initHandshake e w fresh held made =>
      cases made
      have made' : Untouched ((c.initialised c.fd c.world).assign .transport) :=
        (early fresh).alike ((alike_initialised c).trans (alike_assign _ _))
      exact ⟨fun _ => made', fun state => by cases state⟩
  | initPlain e w fresh held made =>
      cases made
      have made' : Untouched
          (((c.initialised c.fd c.world).subscribe (traced N) true false).assign .protocol) :=
        (early fresh).alike (((alike_initialised c).trans (alike_subscribe _ _ _)).trans
          (alike_assign _ _))
      exact made'.carried rfl
  | polled ret err w waiting answered =>
      have tape : w.2 = c.world.2 := congrArg (fun answer => answer.2.2) answered.symm
      exact carried.grown ⟨rfl, rfl, rfl, rfl, tape⟩ rfl rfl rfl (by simp) id id rfl
  | refused | dropped | overflow | fail => exact carried_error _
  | finish | stop => exact carried_closed _
  | handshake f status e w declared => cases declared
  | shutdown f status e w declared => cases declared
  | enterProtocol shaking =>
      have untouched : Untouched (c.assign .protocol) :=
        (carried.early (by rw [shaking]; decide)).alike (alike_assign c _)
      exact untouched.carried rfl
  | read status e rx w reading room answered attentive =>
      refine ⟨fun early => ?_, fun running staying roomy unbeaten => ?_⟩
      · have later := State.rank_of_flows (State.flows_of_reads reading)
        exact absurd early (Nat.not_lt.mpr later)
      · obtain ⟨valid, streamed⟩ := carried.fed running staying roomy unbeaten
        have running' : c.state = .protocol := running
        have read := streamed.read bounded homomorphic valid.rx
          (attentive.idle (by rw [running']; rfl)) answered
        exact ⟨⟨read.1, valid.tx⟩, read.2⟩
  | write status e tx w flowing held unsent answered =>
      refine ⟨fun early => ?_, fun running staying roomy unbeaten => ?_⟩
      · have later := State.rank_of_flows flowing
        exact absurd early (Nat.not_lt.mpr later)
      · obtain ⟨valid, streamed⟩ := carried.fed running staying roomy unbeaten
        have wrote := streamed.write bounded valid.tx unsent answered
        exact ⟨⟨valid.rx, wrote.1⟩, wrote.2⟩
  | handler kind f status s io w handles answered =>
      refine ⟨fun early => ?_, fun running staying roomy unbeaten => ?_⟩
      · have later := (State.rank_of_polls handles.polls).1
        exact absurd early (Nat.not_lt.mpr later)
      · have running' : c.state = .protocol := running
        obtain ⟨answeredOk, staying'⟩ : status = .ok ∧ leaving c.history = false := by
          simpa [Conn.handled, Conn.log, leaving] using staying
        obtain ⟨room, roomy'⟩ : io.tx.wpos < TX_CAP ∧ lately crowds c.history = false := by
          simpa [Conn.handled, Conn.log, lately, crowds] using roomy
        obtain ⟨valid, streamed⟩ := carried.fed running' staying' roomy' unbeaten
        subst answeredOk
        cases handles with
        | onConnect declared _ first => exact streamed.greeted valid declared first room answered
        | onData _ unread _ due => exact streamed.consumed valid unread due room answered
        | onShutdown _ closing => rw [running'] at closing; cases closing
  | heartbeat f s tx w declared running =>
      refine ⟨fun early => ?_, fun _ _ _ unbeaten => by cases unbeaten⟩
      rw [show (c.beaten s tx w).state = .protocol from running] at early
      exact absurd early (by decide)
  | clearRx unfed =>
      refine ⟨fun early => ?_, fun running => ?_⟩
      · have untouched := carried.early early
        exact { untouched with
          rx := ⟨c.rx.clear_valid, (Buffer.rbuf_eq_nil_iff _).mpr c.rx.rsize_clear⟩ }
      · rw [show c.state = .protocol from running] at unfed
        cases unfed
  | _ => exact carried.grown ⟨rfl, rfl, rfl, rfl, rfl⟩ rfl rfl rfl (by simp) id id rfl

/-- What a run in which `s₀` was the new session has delivered: at any point a beginning of the
greeting and of what the session says to all that was received, between two calls all of it. -/
structure Delivers (S : Streaming P) (s₀ : P.Session) (returned : Option Unit)
    (c : Taped N retries P) : Prop where
  state : c.state = .protocol
  begun : c.said <+: (S.greet s₀).2 ++ (drain S.step (S.greet s₀).1 c.world.2.received).output
  complete : returned = some () →
    c.said = (S.greet s₀).2 ++ (drain S.step (S.greet s₀).1 c.world.2.received).output
  unread : returned = some () →
    c.rx.rbuf = (drain S.step (S.greet s₀).1 c.world.2.received).rest

theorem Streamed.delivers {c : Taped N retries P} (streamed : Streamed S c) (state : c.state = .protocol)
    {r : Option Unit} (idle : r = some () → owed P.onConnect.isSome c.history = false) :
    Delivers S c.newSession r c := by
  have outcome : drain S.step (S.greet c.newSession).1 c.world.2.received = c.whole S := rfl
  have notYet : owed P.onConnect.isSome c.history = true → r ≠ some () := fun due returned => by
    rw [idle returned] at due
    cases due
  cases streamed with
  | fresh due untouched =>
      refine ⟨state, ?_, fun h => absurd h (notYet due), fun h => absurd h (notYet due)⟩
      rw [Conn.said, untouched.tape, untouched.tx.2]
      exact List.nil_prefix
  | due output due _ rest said =>
      refine ⟨state, ?_, fun h => absurd h (notYet due), fun h => absurd h (notYet due)⟩
      rw [outcome, rest, said]
      exact (List.prefix_append_right_inj _).mpr (List.prefix_append _ _)
  | settled output _ whole said =>
      refine ⟨state, ?_, fun _ => ?_, fun _ => ?_⟩ <;> rw [outcome, whole]
      · rw [said]
        exact List.prefix_rfl
      · exact said

/-- A recorded run that begins with `attach`. -/
def recording (N : Backend ω) (retries fuel cookie : Nat) (later : List Entry) (host : String)
    (port : UInt16) (pc : P.Config) (w : ω) : Option Unit × Taped N retries P :=
  (exec (traced N) fuel (.attach cookie :: later)).exec (Conn.make host port () pc (w, {}))

theorem recording_delivers (S : Streaming P) (bounded : Transport.Bounded N)
    (homomorphic : Homomorphic (fun _ _ => True) S.step) (retries fuel : Nat) {cookie : Nat}
    (attached : cookie ≠ 0) {later : List Entry} (alive : .destruct ∉ later) (host : String)
    (port : UInt16) (pc : P.Config) (w : ω) :
    let run := recording (P := P) N retries fuel cookie later host port pc w
    Undisturbed run.2.history → beats run.2.history = false →
      Delivers S (P.session host port pc) run.1 run.2 := by
  intro run
  have reached : Reached (traced N) _ later run.1 run.2 :=
    exec_attach_reached fuel cookie later
      (make_rest (T := Transport.plain (traced N) retries) host port () pc (w, {})) rfl
  obtain ⟨r, c⟩ := run
  intro calm unbeaten
  cases reached with
  | destructed _ _ _ member => exact absurd member alive
  | alive path rest =>
      let inv (c : Taped N retries P) : Prop :=
        (c.cookie ≠ 0 ∧ c.newSession = P.session host port pc) ∧ Steady c ∧ Carried S c
      have start : inv ((Conn.make host port () pc (w, {}) : Taped N retries P).attached
          (traced N) cookie) := by
        refine ⟨⟨attached, rfl⟩, fun calm => ?_, ?_⟩
        · cases (engaged_dialed (N := traced N) _).symm.trans calm.fed
        · exact carried_dialed (c := { (Conn.make host port () pc (w, {}) : Taped N retries P).log
            (.enter (.attach cookie)) with cookie := cookie }) rfl
      have keeps : ∀ c c' : Taped N retries P, Step (traced N) c c' → inv c → inv c' :=
        fun _ _ step ⟨⟨cookie, session⟩, steady, carried⟩ =>
          ⟨⟨step.attachedOnce cookie, step.newSession.trans session⟩, step.steady steady,
            step.carried bounded homomorphic cookie carried⟩
      obtain ⟨⟨-, session⟩, steady, carried⟩ := path_invariant keeps path start
      have state := steady calm
      obtain ⟨-, streamed⟩ := carried.fed state calm.staying calm.room unbeaten
      rw [← session]
      exact streamed.delivers state fun returned =>
        (rest returned).1.session.attentive.idle (by rw [state]; rfl)

/-- **The streams do not depend on the schedule.**  In every undisturbed run without a heartbeat,
what `net_write` accepted and what is unsent are the greeting and what the session says to all
received bytes in one piece, and what is unread is what it leaves of them; and another such run
that received the same bytes has said the same and left the same. -/
theorem streams_agree (S : Streaming P) (bounded : Transport.Bounded N)
    (homomorphic : Homomorphic (fun _ _ => True) S.step) (retries fuel cookie : Nat)
    (attached : cookie ≠ 0) (later : List Entry) (alive : .destruct ∉ later) (host : String)
    (port : UInt16) (pc : P.Config) (w : ω) :
    let run := recording (P := P) N retries fuel cookie later host port pc w
    Undisturbed run.2.history → beats run.2.history = false →
      Delivers S (P.session host port pc) run.1 run.2 ∧
      ∀ (retries' fuel' cookie' : Nat) (later' : List Entry) (w' : ω),
        let run' := recording (P := P) N retries' fuel' cookie' later' host port pc w'
        cookie' ≠ 0 → .destruct ∉ later' → Undisturbed run'.2.history →
        beats run'.2.history = false → run.1 = some () → run'.1 = some () →
        run'.2.world.2.received = run.2.world.2.received →
          run'.2.said = run.2.said ∧ run'.2.rx.rbuf = run.2.rx.rbuf := by
  intro run calm unbeaten
  have one := recording_delivers S bounded homomorphic retries fuel attached alive host port pc w
    calm unbeaten
  refine ⟨one, ?_⟩
  intro retries' fuel' cookie' later' w' run' attached' alive' calm' unbeaten' returned returned' same
  have two := recording_delivers S bounded homomorphic retries' fuel' attached' alive' host port pc
    w' calm' unbeaten'
  constructor
  · rw [two.complete returned', one.complete returned, same]
  · rw [two.unread returned', one.unread returned, same]

/-- A session that says `0x21` first and answers every two bytes with the two swapped. -/
def swapper : Protocol.Layer ω where
  Config := Unit
  Session := Unit
  session _ _ _ := ()
  onConnect := some fun s io w =>
    if 1 ≤ io.tx.wsize then some (.ok, s, { io with tx := io.tx.write [0x21] }, w)
    else some (.error, s, io, w)
  onData s io w :=
    match io.rx.rbuf with
    | first :: second :: _ =>
        if 2 ≤ io.tx.wsize then
          some (.ok, s, { rx := io.rx.incRpos 2, tx := io.tx.write [second, first] }, w)
        else some (.error, s, io, w)
    | _ => some (.ok, s, io, w)
  onShutdown := none
  heartbeat := none
  teardown := none

def swapperStep (s : Unit) : List UInt8 → Answer Unit Protocol.Status UInt8
  | first :: second :: _ => ⟨none, s, 2, [second, first]⟩
  | _ => ⟨none, s, 0, []⟩

theorem exchanged_none {io : Io} (valid : io.Valid) : Io.Exchanged io 0 [] io :=
  ⟨valid, Nat.zero_le _, rfl, (List.append_nil _).symm⟩

def swapperStreaming : Streaming (swapper : Protocol.Layer (ω × Tape)) where
  greet s := (s, [0x21])
  step := swapperStep
  silent none := by cases none
  onConnect f declared := by
    cases declared
    intro s io w s' io' w' answered valid _
    simp only at answered
    split at answered
    · rename_i fits
      cases answered
      refine ⟨rfl, ⟨⟨valid.rx, ?_⟩, Nat.zero_le _, rfl, ?_⟩, rfl⟩
      · exact Buffer.write_valid tx_small valid.tx fits
      · exact Buffer.rbuf_write tx_small valid.tx fits
    · cases answered
  onData := by
    intro s io w s' io' w' answered valid _
    simp only [swapper] at answered
    split at answered
    · rename_i first second rest unread
      have two : 2 ≤ io.rx.rsize := by
        rw [← Buffer.rbuf_length, unread]
        exact Nat.le_add_left 2 rest.length
      split at answered
      · rename_i fits
        cases answered
        rw [unread]
        refine ⟨rfl, rfl, ⟨⟨?_, ?_⟩, two, ?_, ?_⟩, rfl⟩
        · exact Buffer.incRpos_valid rx_small valid.rx two
        · exact Buffer.write_valid tx_small valid.tx fits
        · exact Buffer.rbuf_incRpos rx_small valid.rx two
        · exact Buffer.rbuf_write tx_small valid.tx fits
      · cases answered
    · rename_i short
      cases answered
      have waits : swapperStep s io.rx.rbuf = ⟨none, s, 0, []⟩ := by
        unfold swapperStep
        split
        · rename_i first second rest unread
          exact absurd unread (short first second rest)
        · rfl
      rw [waits]
      exact ⟨rfl, rfl, exchanged_none valid, rfl⟩

theorem swapper_stable : Stable (fun _ _ => True) swapperStep where
  idle s u _ waits := by
    rcases u with _ | ⟨first, _ | ⟨second, rest⟩⟩
    · exact ⟨rfl, rfl⟩
    · exact ⟨rfl, rfl⟩
    · cases waits.2
  inside s u _ := by
    rcases u with _ | ⟨first, _ | ⟨second, rest⟩⟩ <;> simp [swapperStep]
  decided s u v _ decides := by
    rcases u with _ | ⟨first, _ | ⟨second, rest⟩⟩
    · exact absurd ⟨rfl, rfl⟩ decides
    · exact absurd ⟨rfl, rfl⟩ decides
    · rfl
  shorter _ _ _ _ := trivial
  next _ _ _ _ := trivial

end Streaming

/-- Three bytes in two pieces, with writes that would block and one that is cut short. -/
def pieces : Script where
  reads := [.ok [1], .error .eagain, .ok [2, 3]]
  writes := [.error .eagain, .ok 1, .ok 1, .error .eagain, .error .eagain]

/-- The same three bytes at once. -/
def atOnce : Script where
  reads := [.ok [1, 2, 3]]

def piecesRun : Option Unit × Taped scripted 1 swapper :=
  recording scripted 1 9 1 [.handleEvent arrival, .handleEvent arrival] "host" 80 () pieces

def atOnceRun : Option Unit × Taped scripted 1 swapper :=
  recording scripted 1 9 1 [.handleEvent arrival] "host" 80 () atOnce

/-- In pieces or at once, the session says the same and leaves the same. -/
theorem streams_agree_pieces :
    (piecesRun.2.world.2.accepted = [0x21, 2] ∧ piecesRun.2.tx.rbuf = [1]) ∧
      Delivers swapperStreaming () piecesRun.1 piecesRun.2 ∧
      atOnceRun.2.said = piecesRun.2.said ∧ atOnceRun.2.rx.rbuf = piecesRun.2.rx.rbuf := by
  have calm : Undisturbed piecesRun.2.history :=
    ⟨by decide +kernel, by decide +kernel, by decide +kernel, by decide +kernel⟩
  have calm' : Undisturbed atOnceRun.2.history :=
    ⟨by decide +kernel, by decide +kernel, by decide +kernel, by decide +kernel⟩
  have unbeaten : beats piecesRun.2.history = false := by decide +kernel
  have unbeaten' : beats atOnceRun.2.history = false := by decide +kernel
  have returned : piecesRun.1 = some () := by decide +kernel
  have returned' : atOnceRun.1 = some () := by decide +kernel
  have same : atOnceRun.2.world.2.received = piecesRun.2.world.2.received := by decide +kernel
  refine ⟨by decide +kernel, ?_⟩
  unfold piecesRun atOnceRun at *
  obtain ⟨delivers, agree⟩ := streams_agree (@swapperStreaming Script) scripted_bounded
    swapper_stable.homomorphic 1 9 1 (by decide) [.handleEvent arrival, .handleEvent arrival]
    (by decide) "host" 80 () pieces calm unbeaten
  refine ⟨delivers, ?_⟩
  exact agree 1 9 1 [.handleEvent arrival] atOnce (by decide) (by decide) calm' unbeaten'
    returned returned' same

end Manet.Reactor
