/-
# Manet.Reactor.Draining — what `drain_protocol` does with input

`step_drain_protocol` reads before it flushes, and clears RX afterwards.  The reads are those
of `transport_read`, so RX is not cleared between two of them, and one that finds the write
position at the end of the array is an overflow: an error, although every byte was to be thrown
away.  `inflow` is how the reads come to their end, as the transport answers them.  Where they
do not fill RX (and a read does not fail), handling the event is handling it as if it were not
readable, on a connection whose RX is empty (`Ignores`); where they do, the connection is put in
`error` with no call having failed (`ignores_iff`).
-/
import Manet.Reactor.Interest
import Manet.Reactor.Overflow
import Manet.Reactor.Quiet

namespace Manet.Reactor

open Manet.Flow Manet.Net Relation

set_option autoImplicit false

variable {ω : Type} {N : Backend ω} {T : Transport.Layer ω} {P : Protocol.Layer ω}

/-! ## How the reads end -/

inductive Inflow where
  /-- The next read would find RX full. -/
  | floods
  /-- A read was answered by something else than `ok`. -/
  | ends (status : Transport.Status)
  deriving DecidableEq

/-- An endpoint that is read from until it answers something else than `ok`. -/
def inflow (T : Transport.Layer ω) : Nat → T.Endpoint → Buffer RX_CAP → ω → Option Inflow
  | 0, _, _, _ => none
  | fuel + 1, e, rx, w =>
      if rx.full then some .floods
      else match T.read e rx w with
        | none => none
        | some (.ok, e', rx', w') => inflow T fuel e' rx' w'
        | some (status, _, _, _) => some (.ends status)

/-- A read, or a subscription that it asked for. -/
def Act.inbound : Act → Bool
  | .read _ _ _ => true
  | .net (.subscribe _ _ _) => true
  | _ => false

/-- From `c` to `c'` only reads have happened. -/
structure Inbound (c c' : Conn T P) : Prop where
  state : c'.state = c.state
  fd : c'.fd = c.fd
  tx : c'.tx = c.tx
  protocol : c'.protocol = c.protocol
  history : ∃ new, c'.history = new ++ c.history ∧ ∀ entry ∈ new, entry.2.inbound = true

theorem Inbound.refl (c : Conn T P) : Inbound c c := ⟨rfl, rfl, rfl, rfl, [], rfl, by simp⟩

theorem Inbound.trans {c c₁ c₂ : Conn T P} (first : Inbound c c₁) (second : Inbound c₁ c₂) :
    Inbound c c₂ where
  state := second.state.trans first.state
  fd := second.fd.trans first.fd
  tx := second.tx.trans first.tx
  protocol := second.protocol.trans first.protocol
  history := by
    obtain ⟨new, grown, quiet⟩ := first.history
    obtain ⟨newer, grown', quiet'⟩ := second.history
    refine ⟨newer ++ new, by rw [grown', grown, List.append_assoc], ?_⟩
    intro entry member
    rcases List.mem_append.mp member with h | h
    · exact quiet' entry h
    · exact quiet entry h

theorem inbound_didRead (c : Conn T P) (status : Transport.Status) (e : T.Endpoint)
    (rx : Buffer RX_CAP) (w : ω) : Inbound c (c.didRead status e rx w) :=
  ⟨rfl, rfl, rfl, rfl, [(c.state, .read status c.rx rx)], rfl, by simp [Act.inbound]⟩

theorem inbound_subscribe (c : Conn T P) (r w : Bool) : Inbound c (c.subscribe N r w) :=
  ⟨rfl, rfl, rfl, rfl, [(c.state, .net (.subscribe c.fd r w))], rfl, by simp [Act.inbound]⟩

theorem inbound_clear (c : Conn T P) : Inbound c { c with rx := c.rx.clear } :=
  ⟨rfl, rfl, rfl, rfl, [], rfl, by simp⟩

/-- What `transport_read` does to the connection once the reads have ended. -/
def Inflow.leave (N : Backend ω) (outcome : Inflow) (c : Conn T P) : Conn T P :=
  match outcome with
  | .floods => (c.log (.overflow c.rx)).enterError N
  | .ends status => ((arm N status).exec c).2

/-- A turn of `transport_read` that consumes nothing. -/
theorem afterRead_unconsumed (status : Transport.Status) (before : Nat) (c : Conn T P) :
    (afterRead N (pure true) (pure ()) before status).exec c =
      if status = .ok then (some none, c) else (some (some ()), ((arm N status).exec c).2) := by
  unfold afterRead
  rw [Prog.exec_get_bind, ite_self]
  cases status <;> rfl

/-- `transport_read` as `step_drain_protocol` calls it. -/
theorem transportRead_inflow {fuel : Nat} {outcome : Inflow} {c : Conn T P}
    (ended : inflow T fuel c.transport c.rx c.world = some outcome) :
    ∃ c', Inbound c c' ∧
      (transportRead N fuel (pure true) (pure ())).exec c = (some (), outcome.leave N c') := by
  induction fuel generalizing c with
  | zero => cases ended
  | succ fuel ih =>
      unfold inflow at ended
      unfold transportRead
      by_cases full : c.rx.full = true
      · rw [if_pos full] at ended
        cases ended
        exact ⟨c, .refl c, Prog.exec_bind_some (readTurn_full full)⟩
      rw [if_neg full] at ended
      rcases answered : T.read c.transport c.rx c.world with _ | ⟨status, e, rx, w⟩
      · rw [answered] at ended
        cases ended
      rw [answered] at ended
      have read : (endpointRead : Method T P _).exec c = (some status, c.didRead status e rx w) := by
        unfold endpointRead
        rw [Prog.exec_get_bind, answered]
        rfl
      have inbound := inbound_didRead c status e rx w
      have turn : (readTurn N (pure true) (pure ())).exec c = _ :=
        (readTurn_room (eq_false_of_ne_true full)).trans
          ((Prog.exec_bind_some read).trans (afterRead_unconsumed status _ _))
      cases status with
      | ok =>
          rw [if_pos rfl] at turn
          obtain ⟨c', later, executed⟩ := ih (c := c.didRead .ok e rx w) ended
          exact ⟨c', inbound.trans later, (Prog.exec_bind_some turn).trans executed⟩
      | close | error | wantRead | wantWrite =>
          cases ended
          rw [if_neg (by simp)] at turn
          exact ⟨_, inbound, Prog.exec_bind_some turn⟩

/-- Unless a read failed or RX was full, only reads have happened. -/
theorem Inflow.leave_inbound {outcome : Inflow} (calm : outcome ≠ .floods)
    (sound : outcome ≠ .ends .error) (c : Conn T P) : Inbound c (outcome.leave N c) := by
  cases outcome with
  | floods => exact absurd rfl calm
  | ends status =>
      cases status with
      | ok | close => exact .refl c
      | error => exact absurd rfl sound
      | wantRead | wantWrite => exact inbound_subscribe c _ _

/-! ## Errors and their reasons -/

/-- The last act is a transport call that was answered `error`. -/
def reported : History → Bool
  | (_, .read .error _ _) :: _ | (_, .write .error _ _) :: _ | (_, .shutdownStep .error) :: _ => true
  | _ => false

/-- Whenever `error` is entered between `c` and `c'`, a transport call has just reported it. -/
structure Blames (c c' : Conn T P) : Prop where
  grown : c.history <:+ c'.history
  blamed : ∀ s older, (s, .assign .error) :: older <:+ c'.history →
    (s, .assign .error) :: older <:+ c.history ∨ reported older = true

theorem Blames.refl (c : Conn T P) : Blames c c := ⟨List.suffix_rfl, fun _ _ => .inl⟩

theorem Blames.trans {c c₁ c₂ : Conn T P} (first : Blames c c₁) (second : Blames c₁ c₂) :
    Blames c c₂ where
  grown := first.grown.trans second.grown
  blamed s older recorded := by
    rcases second.blamed s older recorded with earlier | reported
    · exact first.blamed s older earlier
    · exact .inr reported

theorem blames_path {c c' : Conn T P} (path : ReflTransGen Blames c c') : Blames c c' :=
  path_invariant (fun _ _ step before => before.trans step) path (.refl c)

/-- Anything but an assignment of `error`, or that one with its reason. -/
theorem blames_act {c c' : Conn T P} {s : State} {act : Act}
    (recorded : c'.history = (s, act) :: c.history)
    (reason : act = .assign .error → reported c.history = true) : Blames c c' where
  grown := recorded ▸ List.suffix_cons _ _
  blamed s' older found := by
    rw [recorded] at found
    rcases List.suffix_cons_iff.mp found with same | earlier
    · cases same
      exact .inr (reason rfl)
    · exact .inl earlier

theorem blames_inbound {c c' : Conn T P} (inbound : Inbound c c') : Blames c c' := by
  obtain ⟨new, grown, quiet⟩ := inbound.history
  refine ⟨⟨new, grown.symm⟩, ?_⟩
  rw [grown]
  clear grown inbound
  induction new with
  | nil => exact fun _ _ => .inl
  | cons entry new ih =>
      intro s older found
      rcases List.suffix_cons_iff.mp found with same | earlier
      · cases same
        cases quiet _ List.mem_cons_self
      · exact ih (fun entry member => quiet entry (List.mem_cons_of_mem _ member)) s older earlier

theorem blames_teardown (c : Conn T P) : Blames c (c.teardown N) := by
  unfold Conn.teardown
  split
  swap
  · exact .refl c
  have session : Blames c c.sessionTeardown := by
    unfold Conn.sessionTeardown
    split
    · exact .refl c
    · exact blames_act rfl (by simp)
  have endpoint : Blames c.sessionTeardown c.sessionTeardown.endpointDestroy :=
    blames_act rfl (by simp)
  have cleared : Blames c.sessionTeardown.endpointDestroy
      (c.sessionTeardown.endpointDestroy.log (.net (.clear c.sessionTeardown.endpointDestroy.fd))) :=
    blames_act rfl (by simp)
  exact ((session.trans endpoint).trans cleared).trans (blames_act rfl (by simp))

theorem blames_enterError {c : Conn T P} (reason : reported c.history = true) :
    Blames c (c.enterError N) := by
  have assigned : Blames c (c.assign .error) := blames_act rfl fun _ => reason
  exact assigned.trans (blames_teardown _)

theorem blames_enterClosed (c : Conn T P) : Blames c (c.enterClosed N) := by
  have assigned : Blames c (c.assign .closed) := blames_act rfl (by simp)
  exact assigned.trans (blames_teardown _)

/-- A call that does not return. -/
theorem noReturn_blames {α : Type} {callee : Callee} {c : Conn T P} {Q : α → Conn T P → Prop} :
    Runs Blames (noReturn callee : Method T P α) c Q :=
  runs_modify_bind (blames_act rfl (by simp)) runs_failure

theorem arm_blames {status : Transport.Status} {c : Conn T P}
    (reason : status = .error → reported c.history = true) :
    Runs Blames (arm N status) c fun _ c' => c'.state = c.state ∨ c'.state = .error := by
  cases status with
  | ok | close => exact runs_pure (.inl rfl)
  | wantRead | wantWrite => exact runs_modify (blames_act rfl (by simp)) (.inl rfl)
  | error => exact runs_modify (blames_enterError (reason rfl)) (.inr (Conn.enterError_state N c))

/-! ## What comes after the reads -/

theorem writeTurn_blames {c : Conn T P} (draining : c.state = .drainProtocol) :
    Runs Blames (writeTurn N) c
      (Turn (fun c' => c'.state = .drainProtocol) fun _ c' => 5 ≤ c'.state.rank) := by
  have late : 5 ≤ c.state.rank := by rw [draining]; decide
  refine runs_get_bind ?_
  split
  · exact runs_pure late
  refine Runs.bind (Q := fun status c' => c'.state = .drainProtocol ∧
    (status = .error → reported c'.history = true)) ?_ ?_
  · unfold endpointWrite
    refine runs_get_bind ?_
    rcases T.write c.transport c.tx c.world with _ | ⟨status, e, tx, w⟩
    · exact noReturn_blames
    refine runs_modify_bind (blames_act rfl (by simp)) (runs_pure ⟨draining, ?_⟩)
    rintro rfl
    rfl
  rintro status c' - ⟨draining', reason⟩
  have armed : ∀ status, (status = .error → reported c'.history = true) →
      Runs Blames (do arm N status; return some false : Method T P (Option Bool)) c'
        (Turn (fun c' => c'.state = .drainProtocol) fun _ c' => 5 ≤ c'.state.rank) := by
    intro status reason
    refine (arm_blames reason).bind ?_
    rintro - c'' - (state | state)
    · exact runs_pure (by rw [Turn, state, draining']; decide)
    · exact runs_pure (by rw [Turn, state]; decide)
  refine runs_get_bind ?_
  split
  · exact runs_modify_bind (blames_act rfl (by simp)) (runs_pure (Nat.le_succ 5))
  split
  · exact armed status reason
  split
  · exact armed .wantWrite (by simp)
  · exact runs_pure draining'

/-- The second half of `step_drain_protocol`. -/
def flushDrained (N : Backend ω) (fuel : Nat) : Method T P Unit := do
  if ← transportWrite N fuel false then enterCloseTransport

theorem flushDrained_blames (fuel : Nat) {c : Conn T P} (draining : c.state = .drainProtocol) :
    Runs Blames (flushDrained N fuel) c fun _ c' => 5 ≤ c'.state.rank := by
  have flushed : Runs Blames (transportWrite N fuel false) c fun _ c' => 5 ≤ c'.state.rank := by
    refine (runs_iterate (fun c => c.state = .drainProtocol) (fun c => writeTurn_blames) fuel c
      draining).bind ?_
    rintro (_ | _) c' - late
    · exact runs_pure late
    · exact runs_get_bind (runs_pure late)
  refine flushed.bind ?_
  rintro (_ | _) c' - late
  · exact runs_pure late
  · exact runs_modify (blames_act rfl (by simp)) (Nat.le_succ 5)

/-- `shutdown_step` does not answer `close`. -/
def Candid (T : Transport.Layer ω) : Prop :=
  ∀ f, T.shutdownStep = some f → ∀ {e w status e' w'},
    f e w = some (status, e', w') → status ≠ .close

theorem stepCloseTransport_blames (candid : Candid T) {c : Conn T P}
    (closing : c.state = .closeTransport) :
    Runs Blames (stepCloseTransport N) c fun _ c' => 6 ≤ c'.state.rank := by
  have closed : ∀ c : Conn T P, 6 ≤ (c.enterClosed N).state.rank := by
    intro c
    rw [Conn.enterClosed_state]
    decide
  unfold stepCloseTransport
  rcases declared : T.shutdownStep with _ | f
  · exact runs_modify (blames_enterClosed c) (closed c)
  refine Runs.bind (Q := fun status c' => c'.state = .closeTransport ∧ status ≠ .close ∧
    (status = .error → reported c'.history = true)) ?_ ?_
  · unfold endpointShutdownStep
    refine runs_get_bind ?_
    rcases answered : f c.transport c.world with _ | ⟨status, e, w⟩
    · exact noReturn_blames
    refine runs_modify_bind (blames_act rfl (by simp)) (runs_pure ⟨closing, ?_, ?_⟩)
    · exact candid f declared answered
    · rintro rfl
      rfl
  rintro status c' - ⟨closing', honest, reason⟩
  cases status with
  | ok => exact runs_modify (blames_enterClosed c') (closed c')
  | close => exact absurd rfl honest
  | error =>
      refine runs_modify (blames_enterError (reason rfl)) ?_
      rw [Conn.enterError_state]
      decide
  | wantRead | wantWrite =>
      refine (arm_blames (by simp)).weaken ?_
      rintro - c'' - (state | state)
      · rw [state, closing']
        decide
      · rw [state]
        decide

/-- From `close_transport` on, the event is not looked at. -/
theorem stepsTurn_late (fuel : Nat) (ev ev' : Option Event) {c : Conn T P}
    (late : 6 ≤ c.state.rank) : (stepsTurn N fuel ev).exec c = (stepsTurn N fuel ev').exec c := by
  unfold stepsTurn
  rw [Prog.exec_get_bind, Prog.exec_get_bind]
  cases state : c.state with
  | closeTransport | closed | error => rfl
  | _ => exact absurd late (by rw [state]; decide)

theorem stepsTurn_blames (candid : Candid T) (fuel : Nat) (ev : Option Event) {c : Conn T P}
    (late : 6 ≤ c.state.rank) :
    Runs Blames (stepsTurn N fuel ev) c
      (Turn (fun c' => 6 ≤ c'.state.rank) fun _ _ => True) := by
  unfold stepsTurn
  refine runs_get_bind ?_
  cases state : c.state with
  | closeTransport =>
      refine (stepCloseTransport_blames candid state).settle.weaken fun _ c' _ turn => ?_
      exact turn.imp And.left fun _ _ => trivial
  | closed | error => exact runs_pure trivial
  | _ => exact absurd late (by rw [state]; decide)

theorem steps_late (candid : Candid T) (fuel : Nat) (ev ev' : Option Event) (turns : Nat)
    {c : Conn T P} (late : 6 ≤ c.state.rank) :
    (Prog.iterate (stepsTurn N fuel ev) turns).exec c =
      (Prog.iterate (stepsTurn N fuel ev') turns).exec c := by
  induction turns generalizing c with
  | zero => rfl
  | succ turns ih =>
      have turn := stepsTurn_late (N := N) fuel ev ev' late
      have post := (stepsTurn_blames (N := N) candid fuel ev' late).2
      unfold Prog.iterate
      rcases executed : (stepsTurn N fuel ev').exec c with ⟨_ | _ | ⟨⟨⟩⟩, c'⟩
      · rw [executed] at turn
        rw [Prog.exec_bind_none turn, Prog.exec_bind_none executed]
      · rw [executed] at turn post
        rw [Prog.exec_bind_some turn, Prog.exec_bind_some executed]
        exact ih (post none rfl)
      · rw [executed] at turn
        rw [Prog.exec_bind_some turn, Prog.exec_bind_some executed]

/-! ## The event -/

theorem stepDrainProtocol_unread {fuel : Nat} {ev : Event} (unread : ev.readable = false)
    (c : Conn T P) : (stepDrainProtocol N fuel (some ev)).exec c = (flushDrained N fuel).exec c := by
  unfold stepDrainProtocol
  rw [if_neg (by simp [unread])]
  rfl

theorem stepDrainProtocol_read {fuel : Nat} {ev : Event} (readable : ev.readable = true)
    {c c' : Conn T P}
    (read : (transportRead N fuel (pure true) (pure ())).exec c = (some (), c')) :
    (stepDrainProtocol N fuel (some ev)).exec c =
      (flushDrained N fuel).exec { c' with rx := c'.rx.clear } := by
  unfold stepDrainProtocol
  rw [if_pos (by simp [readable])]
  have cleared := Prog.exec_bind_some
    (f := fun _ => (modify fun c => { c with rx := c.rx.clear } : Method T P Unit)) read
  exact Prog.exec_bind_some cleared

/-- A turn of `steps` in `drain_protocol` whose reads are over. -/
def drainedTurn (N : Backend ω) (fuel : Nat) : Method T P (Option Unit) := do
  flushDrained N fuel
  let c ← get
  return if c.state = .drainProtocol then some () else none

theorem drainedTurn_blames (fuel : Nat) {c : Conn T P} (draining : c.state = .drainProtocol) :
    Runs Blames (drainedTurn N fuel) c (Turn (fun c' => 6 ≤ c'.state.rank) fun _ _ => True) := by
  refine (flushDrained_blames fuel draining).settle.weaken fun _ c' _ turn => ?_
  refine turn.imp ?_ fun _ _ => trivial
  rintro ⟨late, moved⟩
  cases state : c'.state with
  | drainProtocol => exact absurd state moved
  | closeTransport | closed | error => decide
  | _ => exact absurd late (by rw [state]; decide)

/-- `steps` from `drain_protocol`, once the reads are over. -/
def afterReads (N : Backend ω) (fuel turns : Nat) (ev : Event) : Method T P Unit := do
  match ← drainedTurn N fuel with
  | some a => pure a
  | none => Prog.iterate (stepsTurn N fuel (some ev)) turns

theorem steps_drain {fuel turns : Nat} {ev : Event} {c c' : Conn T P}
    (draining : c.state = .drainProtocol)
    (stepped : (stepDrainProtocol N fuel (some ev)).exec c = (flushDrained N fuel).exec c') :
    (Prog.iterate (stepsTurn N fuel (some ev)) (turns + 1)).exec c =
      (afterReads N fuel turns ev).exec c' := by
  have turn : (stepsTurn N fuel (some ev)).exec c = (drainedTurn N fuel).exec c' := by
    unfold stepsTurn drainedTurn
    rw [Prog.exec_get_bind, draining, Prog.exec_bind (flushDrained N fuel), ← stepped]
    exact Prog.exec_bind _ _ c
  unfold Prog.iterate afterReads
  rw [Prog.exec_bind, turn, Prog.exec_bind]
  rcases (drainedTurn N fuel).exec c' with ⟨_ | _ | a, c''⟩ <;> rfl

theorem afterReads_blames (candid : Candid T) (fuel turns : Nat) (ev : Event) {c : Conn T P}
    (draining : c.state = .drainProtocol) :
    Runs Blames (afterReads N fuel turns ev) c fun _ _ => True := by
  refine (drainedTurn_blames fuel draining).bind ?_
  rintro (_ | _) c' - post
  · exact runs_iterate (fun c => 6 ≤ c.state.rank) (fun c => stepsTurn_blames candid fuel _) turns
      c' post
  · exact runs_pure trivial

theorem afterReads_any (candid : Candid T) (fuel turns : Nat) (ev ev' : Event) {c : Conn T P}
    (draining : c.state = .drainProtocol) :
    (afterReads N fuel turns ev).exec c = (afterReads N fuel turns ev').exec c := by
  have post := (drainedTurn_blames (N := N) fuel draining).2
  unfold afterReads
  rcases executed : (drainedTurn N fuel).exec c with ⟨_ | _ | ⟨⟨⟩⟩, c'⟩
  · rw [Prog.exec_bind_none executed, Prog.exec_bind_none executed]
  · rw [executed] at post
    rw [Prog.exec_bind_some executed, Prog.exec_bind_some executed]
    exact steps_late candid fuel _ _ turns (post none rfl)
  · rw [Prog.exec_bind_some executed, Prog.exec_bind_some executed]

/-- **Input is ignored** in a call of `steps` that has `turns` turns left and is in
`drain_protocol`; with all of them this is `handle_event`.  No error is entered but for one that
a transport call reported, and after some reads the call goes on as if the event had not been
readable and nothing had been received. -/
structure Ignores (N : Backend ω) (fuel turns : Nat) (ev : Event) (c : Conn T P) : Prop where
  blames : Blames c ((Prog.iterate (stepsTurn N fuel (some ev)) turns).exec c).2
  discards : ∃ c', Inbound c c' ∧ c'.rx.rsize = 0 ∧
    (Prog.iterate (stepsTurn N fuel (some ev)) turns).exec c =
      (Prog.iterate (stepsTurn N fuel (some { ev with readable := false })) turns).exec c'

theorem ignores_of_calm (candid : Candid T) {fuel : Nat} (turns : Nat) {ev : Event} {c : Conn T P}
    (readable : ev.readable = true) (draining : c.state = .drainProtocol) {outcome : Inflow}
    (ended : inflow T fuel c.transport c.rx c.world = some outcome)
    (calm : outcome ≠ .floods) (sound : outcome ≠ .ends .error) :
    Ignores N fuel (turns + 1) ev c := by
  obtain ⟨c₁, reads, read⟩ := transportRead_inflow (N := N) ended
  have inbound := reads.trans (outcome.leave_inbound (N := N) calm sound c₁)
  have inbound' := inbound.trans (inbound_clear _)
  have draining' := inbound'.state.trans draining
  have stepped := stepDrainProtocol_read readable read
  have unread : ∀ c : Conn T P, (stepDrainProtocol N fuel (some { ev with readable := false })).exec c =
      (flushDrained N fuel).exec c := stepDrainProtocol_unread rfl
  constructor
  · rw [steps_drain draining stepped]
    exact (blames_inbound inbound').trans
      (blames_path (afterReads_blames candid fuel turns ev draining').1)
  · refine ⟨_, inbound', by simp, ?_⟩
    rw [steps_drain draining stepped, steps_drain draining' (unread _)]
    exact afterReads_any candid fuel turns ev _ draining'

/-- After an overflow there is nothing to flush. -/
theorem flushDrained_gone {fuel : Nat} (some_fuel : 0 < fuel) {c : Conn T P} (gone : c.fd = -1) :
    (flushDrained N fuel).exec c = (some (), c.assign .closeTransport) := by
  obtain ⟨fuel, rfl⟩ := Nat.exists_eq_succ_of_ne_zero (Nat.pos_iff_ne_zero.mp some_fuel)
  have turn : (writeTurn N).exec c = (some (some true), c) := by
    unfold writeTurn
    rw [Prog.exec_get_bind, if_pos (.inl gone)]
    rfl
  have loop : (Prog.iterate (writeTurn N) (fuel + 1)).exec c = (some true, c) :=
    Prog.exec_bind_some turn
  have written : (transportWrite N (fuel + 1) false).exec c = (some true, c) :=
    Prog.exec_bind_some loop
  exact Prog.exec_bind_some written

theorem not_ignores_of_floods (candid : Candid T) {fuel : Nat} (turns : Nat) {ev : Event}
    {c : Conn T P} (readable : ev.readable = true) (draining : c.state = .drainProtocol)
    (flooded : inflow T fuel c.transport c.rx c.world = some .floods) :
    ¬ Ignores N fuel (turns + 1) ev c := by
  intro ignores
  obtain ⟨c₁, reads, read⟩ := transportRead_inflow (N := N) flooded
  obtain ⟨new, grown, -⟩ := reads.history
  have stepped := stepDrainProtocol_read readable read
  have some_fuel : 0 < fuel := by
    apply Nat.pos_of_ne_zero
    rintro rfl
    cases flooded
  -- what is left of the connection after the overflow, and after the flush that finds nothing
  let torn : Conn T P := Inflow.floods.leave N c₁
  let gone : Conn T P := Conn.assign .closeTransport { torn with rx := torn.rx.clear }
  have flushed : (flushDrained N fuel).exec { torn with rx := torn.rx.clear } = (some (), gone) :=
    flushDrained_gone some_fuel (Conn.teardown_fd N _)
  have turn : (drainedTurn N fuel).exec { torn with rx := torn.rx.clear } = (some none, gone) :=
    Prog.exec_bind_some flushed
  have executed : (Prog.iterate (stepsTurn N fuel (some ev)) (turns + 1)).exec c =
      (Prog.iterate (stepsTurn N fuel (some ev)) turns).exec gone :=
    (steps_drain draining stepped).trans (Prog.exec_bind_some turn)
  have later : Blames gone ((Prog.iterate (stepsTurn N fuel (some ev)) turns).exec gone).2 :=
    blames_path (runs_iterate (Q := fun _ _ => True) (fun c => 6 ≤ c.state.rank)
      (fun c => stepsTurn_blames candid fuel _) turns gone (Nat.le_refl 6)).1
  have recorded : (c₁.state, .assign .error) :: (c₁.state, .overflow c₁.rx) :: c₁.history <:+
      gone.history :=
    (Conn.teardown_suffix N ((c₁.log (.overflow c₁.rx)).assign .error)).trans (List.suffix_cons _ _)
  have blamed := ignores.blames.blamed c₁.state ((c₁.state, .overflow c₁.rx) :: c₁.history)
  rw [executed] at blamed
  rcases blamed (recorded.trans later.grown) with earlier | reason
  · have short := earlier.length_le
    rw [grown] at short
    simp only [List.length_cons, List.length_append] at short
    omega
  · cases reason

/-- **Draining ignores input exactly where it does not fill RX**: for every connection in
`drain_protocol`, whatever it has still to send, over any transport whose `shutdown_step` does not
answer `close`, and for any reads that come to an end without an error. -/
theorem ignores_iff (candid : Candid T) (fuel turns : Nat) {ev : Event} {c : Conn T P}
    (readable : ev.readable = true) (draining : c.state = .drainProtocol) {outcome : Inflow}
    (ended : inflow T fuel c.transport c.rx c.world = some outcome)
    (sound : outcome ≠ .ends .error) :
    Ignores N fuel (turns + 1) ev c ↔ outcome ≠ .floods := by
  constructor
  · rintro ignores rfl
    exact not_ignores_of_floods candid turns readable draining ended ignores
  · intro calm
    exact ignores_of_calm candid turns readable draining ended calm sound

/-- A connection that drains: it has one byte to send, and the peer sends three in two chunks. -/
def drainingConn : Conn (Transport.plain scripted 1) parting :=
  ((exec scripted 9 [.attach 1, .stop]).exec (plainConn parting ()
    { reads := [.ok [1, 2], .ok [3]], writes := [.error .eagain, .error .eagain] })).2

/-- Its input is ignored, and it goes on draining. -/
theorem ignores_iff_chunks :
    Ignores scripted 9 9 arrival drainingConn ∧
      ((handleEvent scripted 9 arrival).exec drainingConn).2.state = .drainProtocol := by
  have ended : inflow (Transport.plain scripted 1) 9 drainingConn.transport drainingConn.rx
      drainingConn.world = some (.ends .wantRead) := by decide +kernel
  have ignores : Ignores scripted 9 9 arrival drainingConn :=
    (ignores_iff (N := scripted) (T := Transport.plain scripted 1) (P := parting) (by rintro f ⟨⟩) 9 8
      rfl (by decide +kernel) ended (by decide)).mpr (by decide)
  exact ⟨ignores, by decide +kernel⟩

/-- A transport with RX_CAP bytes to read: no call of it fails, and the connection is put in
`error` and torn down, with a byte still to send. -/
theorem flooded_drain :
    let c := ((exec scripted 9 [.attach 1, .stop]).exec
      (Conn.make "host" 80 () () {} : Conn torrent parting)).2
    let next := (handleEvent scripted 9 arrival).exec c
    (c.state = .drainProtocol ∧ c.tx.rsize = 1 ∧ c.rx.rsize = 0) ∧
      (next.1 = some () ∧ next.2.fd = -1 ∧ next.2.tx.rsize = 1) ∧
      ¬ Ignores scripted 9 9 arrival c := by
  refine ⟨by decide +kernel, by decide +kernel, ?_⟩
  exact not_ignores_of_floods (by rintro f ⟨⟩) 8 rfl (by decide +kernel) (by decide +kernel)

end Manet.Reactor
