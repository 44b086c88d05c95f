/-
# Manet.Reactor.Retry — what is offered again

OpenSSL wants a write that could not be carried out to be retried with the same
buffer: `SSL_write` after `SSL_ERROR_WANT_*` has to be given the same address and the
same leading bytes.  `retry` reads off the history what the last write on the living
endpoint offered in vain, and `Retries` holds every write to it.

Nothing between two writes moves the unread bytes: handlers and heartbeats only append
(`Io.Uses.appends`), a write is the only thing that consumes, and TX is cleared only
between two endpoints.  So it holds in every run (`writes_retried`), over any
transport whose writes only consume, as both `Plain` and `Tls` do.
-/
import Manet.Reactor.Windows

namespace Manet.Reactor

open Manet.Flow Manet.Net Relation

set_option autoImplicit false

/-- What the last write on the endpoint offered, if it took nothing of it. -/
def retry : History → Option (Buffer TX_CAP)
  | [] => none
  | (_, .write _ before after) :: _ => if after.rsize = before.rsize then some before else none
  | (_, .init true) :: _ => none
  | _ :: h => retry h

/-- The window starts at the same offset, with the same bytes. -/
structure Buffer.Again (offered again : Buffer TX_CAP) : Prop where
  offset : again.rpos = offered.rpos
  bytes : offered.rbuf <+: again.rbuf

theorem Buffer.Again.refl (b : Buffer TX_CAP) : b.Again b := ⟨rfl, List.prefix_rfl⟩

theorem Buffer.Again.trans {b₁ b₂ b₃ : Buffer TX_CAP} (first : b₁.Again b₂) (second : b₂.Again b₃) :
    b₁.Again b₃ :=
  ⟨second.offset.trans first.offset, first.bytes.trans second.bytes⟩

/-- What a write offers, returned from or not. -/
def Act.offers : Act → Option (Buffer TX_CAP)
  | .write _ before _ => some before
  | .noReturn (.write offered) => some offered
  | _ => none

/-- Every write offers again what the one before offered in vain. -/
structure Retries (h : History) : Prop where
  write : ∀ s act older, (s, act) :: older <:+ h → ∀ offered again, retry older = some offered →
    act.offers = some again → offered.Again again

theorem retries_cons {s : State} {act : Act} {h : History} (older : Retries h)
    (last : ∀ offered again, retry h = some offered → act.offers = some again → offered.Again again) :
    Retries ((s, act) :: h) := by
  refine ⟨fun s' act' older' suffix => ?_⟩
  rcases List.suffix_cons_iff.mp suffix with same | earlier
  · cases same
    exact last
  · exact older.write s' act' older' earlier

variable {ω : Type} {N : Backend ω} {T : Transport.Layer ω} {P : Protocol.Layer ω}

theorem retries_skip {s : State} {act : Act} {h : History} (blind : act.offers = none) :
    Retries ((s, act) :: h) = Retries h := by
  refine propext ⟨fun all => ⟨fun s' act' older suffix => ?_⟩, fun older => retries_cons older ?_⟩
  · exact all.write s' act' older (suffix.trans (List.suffix_cons _ _))
  · rw [blind]
    intro _ _ _ offers
    cases offers

/-- TX still begins with what was offered in vain. -/
structure Retains (c : Conn T P) : Prop where
  past : Retries c.history
  held : c.state.connected = true → c.fd ≠ -1 → ∀ offered, retry c.history = some offered →
    offered.Again c.tx

/-- An act that is no write, and leaves TX alone or appends to it. -/
theorem Retains.grown {c c' : Conn T P} (retains : Retains c) {s : State} {act : Act}
    (history : c'.history = (s, act) :: c.history) (blind : act.offers = none)
    (same : retry ((s, act) :: c.history) = retry c.history)
    (still : c'.state.connected = true → c'.fd ≠ -1 → c.state.connected = true ∧ c.fd ≠ -1)
    (appended : c.tx.Again c'.tx) : Retains c' := by
  refine ⟨?_, fun connected held offered last => ?_⟩
  · rw [history, retries_skip blind]
    exact retains.past
  · rw [history, same] at last
    obtain ⟨before, held'⟩ := still connected held
    exact (retains.held before held' offered last).trans appended

/-- Without a descriptor nothing will be written. -/
theorem retains_idle {c : Conn T P} (past : Retries c.history) (idle : c.fd = -1) : Retains c :=
  ⟨past, fun _ held => absurd idle held⟩

theorem Retains.torn {c : Conn T P} (retains : Retains c) : Retains (c.teardown N) := by
  refine retains_idle ?_ (Conn.teardown_fd N c)
  rw [Conn.teardown_unread N (fun _ _ => retries_skip rfl) (fun _ _ => retries_skip rfl)
    fun _ _ _ => retries_skip rfl]
  exact retains.past

theorem Retains.dialed {c : Conn T P} (retains : Retains c) : Retains (c.begin.dial N).2 := by
  refine ⟨?_, fun connected => by cases connected⟩
  rw [Conn.dial_unread N (fun _ _ _ => retries_skip rfl) fun _ _ _ => retries_skip rfl]
  exact (retries_skip rfl).mpr retains.past

/-- A write that took nothing has left the buffer as it was. -/
theorem again_of_drains {tx tx' : Buffer TX_CAP} {n : Nat} (valid : tx.Valid) (inside : n ≤ tx.rsize)
    (dropped : tx' = tx.incRpos n) (same : tx'.rsize = tx.rsize) : tx.Again tx' := by
  have size := Buffer.rsize_incRpos tx_small valid inside
  rw [← dropped] at size
  have none : n = 0 := by omega
  subst none
  rw [dropped, Buffer.incRpos_zero tx_small valid]
  exact .refl tx

theorem Handles.uses {c : Conn T P} {kind : Protocol.HandlerKind}
    {f : Protocol.Handler P.Session ω} (handles : Handles c kind f) (uses : P.Uses) :
    Protocol.Handler.Uses f := by
  cases handles with
  | onConnect declared => exact uses.onConnect f declared
  | onData => exact uses.onData
  | onShutdown declared => exact uses.onShutdown f declared

theorem Io.Uses.again {io io' : Io} (uses : Io.Uses io io') (valid : io.Valid) :
    io.tx.Again io'.tx :=
  ⟨(uses.appends valid).1, (uses.appends valid).2⟩

theorem Step.retains {c c' : Conn T P} (step : Step N c c') (drains : T.Drains) (uses : P.Uses)
    (buffered : Buffered c) (retains : Retains c) : Retains c' := by
  have assigned : ∀ {s : State}, (s.connected = true → c.fd ≠ -1 → c.state.connected = true) →
      Retains (c.assign s) := fun still =>
    retains.grown rfl rfl rfl (fun connected held => ⟨still connected held, held⟩) (.refl _)
  have failed : ∀ s : State, s.connected = false → Retains (c.assign s) := fun s done =>
    assigned fun connected => by rw [done] at connected; cases connected
  have valid : Io.Valid ⟨c.rx, c.tx⟩ := ⟨buffered.rx, buffered.tx⟩
  cases step with
  | write status e tx w flowing held _ answered =>
      have connected := State.connected_of_flows flowing
      obtain ⟨n, inside, dropped⟩ := drains answered buffered.tx
      refine ⟨retries_cons retains.past fun offered again last offers => ?_,
        fun _ _ offered last => ?_⟩
      · cases offers
        exact retains.held connected held offered last
      · by_cases same : tx.rsize = c.tx.rsize
        · have offer : c.tx = offered :=
            Option.some.inj ((if_pos same).symm.trans last)
          exact offer ▸ again_of_drains buffered.tx inside dropped same
        · have nothing : none = some offered := (if_neg same).symm.trans last
          cases nothing
  | noReturn callee permitted =>
      cases callee with
      | write offered =>
          obtain ⟨flowing, held, rfl⟩ := permitted
          have connected := State.connected_of_flows flowing
          refine ⟨retries_cons retains.past fun offered again last offers => ?_, retains.held⟩
          cases offers
          exact retains.held connected held offered last
      | _ => exact retains.grown rfl rfl rfl (fun h h' => ⟨h, h'⟩) (.refl _)
  | handler kind f status s io w handles answered =>
      exact retains.grown rfl rfl rfl (fun h h' => ⟨h, h'⟩)
        ((handles.uses uses answered).again valid)
  | heartbeat f s tx w declared _ answered =>
      exact retains.grown rfl rfl rfl (fun h h' => ⟨h, h'⟩)
        ((uses.heartbeat f declared answered c.rx).again valid)
  | attach k =>
      refine Retains.dialed (c := { c.log (.enter (.attach k)) with cookie := k }) ?_
      exact retains.grown rfl rfl rfl (fun h h' => ⟨h, h'⟩) (.refl _)
  | restart => exact Retains.dialed (c := c.renew) ⟨retains.past, retains.held⟩
  | dialFailed => exact failed .error rfl
  | dialPending =>
      exact (failed .inProgress rfl).grown rfl rfl rfl (fun h h' => ⟨h, h'⟩) (.refl _)
  | initFailed w _ held =>
      refine retains_idle ?_ (Conn.initFailed_fd N c w)
      rw [Conn.initFailed_unread N (fun _ _ => retries_skip rfl)
        (fun _ _ _ => retries_skip rfl) w held]
      exact (retries_skip rfl).mpr ((retries_skip rfl).mpr retains.past)
  | initHandshake =>
      refine ⟨?_, fun _ _ offered last => by cases last⟩
      exact (retries_skip rfl).mpr ((retries_skip rfl).mpr retains.past)
  | initPlain =>
      refine ⟨?_, fun _ _ offered last => by cases last⟩
      exact (retries_skip rfl).mpr ((retries_skip rfl).mpr ((retries_skip rfl).mpr retains.past))
  | refused ret err w =>
      have polled : Retains (c.polled ret err w) :=
        retains.grown rfl rfl rfl (fun h h' => ⟨h, h'⟩) (.refl _)
      refine Retains.torn (c := (c.polled ret err w).assign .error) ?_
      exact polled.grown rfl rfl rfl (fun h => by cases h) (.refl _)
  | overflow =>
      have logged : Retains (c.log (.overflow c.rx)) :=
        retains.grown rfl rfl rfl (fun h h' => ⟨h, h'⟩) (.refl _)
      refine Retains.torn (c := (c.log (.overflow c.rx)).assign .error) ?_
      exact logged.grown rfl rfl rfl (fun h => by cases h) (.refl _)
  | dropped | fail => exact (failed .error rfl).torn
  | finish | stop => exact (failed .closed rfl).torn
  | enterProtocol shaking => exact assigned fun _ _ => by rw [shaking]; rfl
  | closeProtocol running => exact assigned fun _ _ => by rw [running]; rfl
  | drainProtocol closing =>
      refine assigned fun _ held => ?_
      rcases closing with polls | ⟨⟨-, idle⟩, -⟩ | ⟨closed, -⟩
      · exact State.connected_of_flows (State.flows_of_polls polls)
      · exact absurd idle held
      · rw [closed]; rfl
  | closeTransport closes =>
      refine assigned fun _ held => ?_
      cases closes with
      | flushed flowing => exact State.connected_of_flows flowing
      | severed connected => exact connected
      | stopped _ early => rcases early with state | ⟨state, -⟩ <;> rw [state] <;> rfl
      | lost _ idle => exact absurd idle held
  | clearRx => exact ⟨retains.past, retains.held⟩
  | _ => exact retains.grown rfl rfl rfl (fun h h' => ⟨h, h'⟩) (.refl _)

/-- **What a write offered in vain is offered again**, at the same offset and with the same
bytes in front, by the next write on the same endpoint: at every point of every run, over
every transport that stays within its windows and whose writes only consume, and for every
session that only uses its windows. -/
theorem writes_retried (transport : T.Within) (drains : T.Drains) (uses : P.Uses) (fuel : Nat)
    (entries : List Entry) (host : String) (port : UInt16) (tc : T.Config) (pc : P.Config) (w : ω) :
    Retries ((exec N fuel entries).exec (Conn.make host port tc pc w : Conn T P)).2.history := by
  have start : Buffered (Conn.make host port tc pc w : Conn T P) ∧
      Retains (Conn.make host port tc pc w : Conn T P) :=
    ⟨make_buffered host port tc pc w,
      ⟨fun _ _ _ none => (by cases List.suffix_nil.mp none)⟩, fun h => by cases h⟩
  have keeps : ∀ c c' : Conn T P, Step N c c' → Buffered c ∧ Retains c → Buffered c' ∧ Retains c' :=
    fun _ _ step inv =>
      ⟨step.buffered transport uses.within inv.1, step.retains drains uses inv.1 inv.2⟩
  have torn : ∀ c : Conn T P, Buffered c ∧ Retains c →
      Buffered ((c.log (.enter .destruct)).teardown N) ∧
        Retains ((c.log (.enter .destruct)).teardown N) := by
    rintro c ⟨buffered, retains⟩
    have logged : Retains (c.log (.enter .destruct)) :=
      retains.grown rfl rfl rfl (fun h h' => ⟨h, h'⟩) (.refl _)
    exact ⟨buffered.destructed, logged.torn⟩
  have reached := exec_reached (N := N) fuel entries
    (make_rest host port tc pc w : Rest (Conn.make host port tc pc w : Conn T P))
  exact (reached.invariant keeps torn start).2.past

/-- The upgrade request cannot be written at first; a heartbeat appends a ping of six bytes,
and the next write offers the request again, with the ping behind it. -/
theorem writes_retried_upgrade :
    let c := ((exec scripted 9 [.attach 1, .heartbeat]).exec
      (webSocketConn { writes := [.error .eagain] })).2
    (c.history.filterMap fun entry => entry.2.offers.map Buffer.rsize) = [149, 143] ∧
      Retries c.history := by
  constructor
  · decide +kernel
  · unfold webSocketConn
    exact writes_retried (Transport.plain_within scripted_bounded 1)
      (Transport.plain_drains scripted_bounded 1)
      (Protocol.webSocket_uses Protocol.zeroCrypto parrot_within .cont) 9 [.attach 1, .heartbeat]
      "host" 80 () rootConfig { writes := [.error .eagain] }

end Manet.Reactor
