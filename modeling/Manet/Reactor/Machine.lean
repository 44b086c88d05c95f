/-
# Manet.Reactor.Machine — the machine's steps, its loop and its entry points

Continues `Manet.Reactor.Paths`: one lemma per `step_*` method, then `steps`, then
the entry points.  `Settled` is what a turn of the machine leaves, `Rest` what a
connection satisfies between two calls.  `exec_reached` collects them: from a new
connection, every sequence of entry points is a path of `Step`, and the destructor
only ever meets a connection at rest.
-/
import Manet.Reactor.Paths

namespace Manet.Reactor

open Manet.Flow Manet.Net Relation

set_option autoImplicit false

variable {ω : Type} {N : Backend ω} {O : Prop} {T : Transport.Layer ω} {P : Protocol.Layer ω}

/-! ## The steps of the machine -/

/-- The last handshake or shutdown step asked for an event the connection will hear of. -/
def Heeds (c : Conn T P) : Prop :=
  asked c.history = some .wantRead ∧ Wakes c true false ∨
    asked c.history = some .wantWrite ∧ Wakes c false true

def Draining (c : Conn T P) : Prop :=
  (T.Keeps → c.tx.rsize ≠ 0) ∧ Wakes c false (c.tx.rsize ≠ 0)

/-- Before the session is first called it has not answered, and then its turns are over. -/
structure Tended (c : Conn T P) : Prop where
  silent : c.state.rank < 3 → leaving c.history = false
  attentive : Attentive c
  undone : Undone c

theorem tended_of_quiet {c : Conn T P} (quiet : c.state.polls = false)
    (silent : c.state.rank < 3 → leaving c.history = false) : Tended c where
  silent := silent
  attentive := attentive_of_not_polls quiet
  undone state := by
    rw [state] at quiet
    cases quiet

theorem Open.tended {c : Conn T P} (opened : Open c) : Tended c where
  silent early := by
    rcases opened.flows with flows | ⟨state, -⟩
    · have later := State.rank_of_flows flows
      omega
    · rw [state] at early
      simp [State.rank] at early
  attentive := opened.attentive
  undone := opened.undone

/-- What `steps` needs of the state it starts a turn in. -/
structure Ready (c : Conn T P) : Prop where
  connecting : c.state = .inProgress → c.fd ≠ -1 ∧ Wakes c false true
  shaking : c.state = .transport → T.handshakeStep.isSome = true
  polling : Armed c
  session : Tended c

theorem Ready.open {c : Conn T P} (ready : Ready c) (polls : c.state.polls = true) : Open c where
  flows := .inl (State.flows_of_polls polls)
  armed := ready.polling
  undone := ready.session.undone
  attentive := ready.session.attentive

/-- What `steps` leaves: in every state the connection waits in, it will hear of the
event it waits for. -/
structure Settled (c : Conn T P) : Prop extends Ready c where
  begun : c.state ≠ .uninitialized
  stepping : c.state = .transport ∨ c.state = .closeTransport → Heeds c
  draining : c.state = .drainProtocol → Draining c

/-- What one step from state `s` leaves. -/
structure Stepped (s : State) (c : Conn T P) : Prop where
  ready : Ready c
  settled : c.state = s → Settled c
  moved : c.state ≠ s → c.state ≠ .inProgress

theorem Open.ready {c : Conn T P} (opened : Open c) : Ready c where
  connecting state := by rcases opened.flows with h | ⟨h, -⟩ <;> rw [state] at h <;> cases h
  shaking state := by rcases opened.flows with h | ⟨h, -⟩ <;> rw [state] at h <;> cases h
  polling := opened.armed
  session := opened.tended

theorem Open.notFresh {c : Conn T P} (opened : Open c) :
    c.state ≠ .uninitialized ∧ c.state ≠ .inProgress ∧ c.state ≠ .transport := by
  refine ⟨?_, ?_, ?_⟩ <;> intro state <;> rcases opened.flows with h | ⟨h, -⟩ <;> rw [state] at h <;>
    cases h

theorem Open.stepped {s : State} {c : Conn T P} (opened : Open c)
    (polls : s.polls = true ∨ s = .inProgress ∨ s = .transport) : Stepped s c where
  ready := opened.ready
  moved _ := opened.notFresh.2.1
  settled state := by
    rcases polls with polls | rfl | rfl
    · refine { opened.ready with begun := opened.notFresh.1, stepping := ?_, draining := ?_ }
      · rintro (h | h) <;> rw [← state, h] at polls <;> cases polls
      · intro h
        rw [← state, h] at polls
        cases polls
    · exact absurd state opened.notFresh.2.1
    · exact absurd state opened.notFresh.2.2

theorem settled_terminal {c : Conn T P} (done : c.state.terminal = true) : Settled c := by
  have quiet : c.state.polls = false := by
    by_contra polls
    have early := State.rank_of_polls (Bool.not_eq_false _ |>.mp polls)
    rw [State.rank_of_terminal done] at early
    omega
  constructor
  · constructor
    · intro h; rw [h] at done; cases done
    · intro h; rw [h] at done; cases done
    · exact armed_of_not_polls quiet
    · refine tended_of_quiet quiet fun early => ?_
      rw [State.rank_of_terminal done] at early
      omega
  · intro h; rw [h] at done; cases done
  · rintro (h | h) <;> rw [h] at done <;> cases done
  · intro h; rw [h] at done; cases done

theorem stepped_terminal {s : State} {c : Conn T P} (done : c.state.terminal = true) :
    Stepped s c := by
  refine ⟨(settled_terminal done).toReady, fun _ => settled_terminal done, fun _ h => ?_⟩
  rw [h] at done
  cases done

theorem stepped_enterError (s : State) (c : Conn T P) : Stepped s (c.enterError N) :=
  stepped_terminal (by rw [Conn.enterError_state]; rfl)

/-- A step that has asked for an event waits for it. -/
theorem stepped_asked {s : State} {c : Conn T P} {status : Transport.Status} {r w : Bool}
    (step : s = .transport ∧ T.handshakeStep.isSome = true ∨ s = .closeTransport)
    (state : c.state = s) (session : Tended c) (answer : asked c.history = some status)
    (asks : status = .wantRead ∨ status = .wantWrite) (reads : status = .wantRead → r = true)
    (writes : status = .wantWrite → w = true) : Stepped s (c.subscribe N r w) := by
  have state' : (c.subscribe N r w).state = s := state
  have session' : Tended (c.subscribe N r w) :=
    ⟨session.silent, ⟨session.attentive.staying, session.attentive.idle⟩, session.undone⟩
  have ready : Ready (c.subscribe N r w) := by
    rcases step with ⟨rfl, declared⟩ | rfl
    · exact ⟨fun h => (by rw [state'] at h; cases h), fun _ => declared,
        armed_of_not_polls (by rw [state']; rfl), session'⟩
    · exact ⟨fun h => (by rw [state'] at h; cases h), fun h => (by rw [state'] at h; cases h),
        armed_of_not_polls (by rw [state']; rfl), session'⟩
  refine ⟨ready, fun _ => { ready with begun := ?_, stepping := fun _ => ?_, draining := ?_ },
    fun h => absurd state' h⟩
  · rw [state']
    rcases step with ⟨rfl, -⟩ | rfl <;> simp
  · have wakes := wakes_subscribe (N := N) c r w
    rcases asks with rfl | rfl
    · exact .inl ⟨answer, wakes.mono (fun _ => reads rfl) (by simp)⟩
    · exact .inr ⟨answer, wakes.mono (by simp) (fun _ => writes rfl)⟩
  · rw [state']
    rcases step with ⟨rfl, -⟩ | rfl <;> simp

theorem enterConnected_runs (fuel : Nat) {c : Conn T P}
    (fresh : c.state = .uninitialized ∨ c.state = .inProgress) (held : c.fd ≠ -1)
    (silent : leaving c.history = false) :
    Runs (Move N O) (enterConnected N fuel) c fun _ c' => Stepped .inProgress c' ∧
      c'.state ≠ .uninitialized ∧ c'.state ≠ .inProgress := by
  refine runs_get_bind ?_
  rcases made : T.init c.fd c.transportConfig c.world with ⟨_ | e, w⟩
  · refine runs_modify (.initFailed c w fresh held made) ⟨stepped_terminal ?_, ?_⟩
    · rw [Conn.initFailed_state]; rfl
    · rw [Conn.initFailed_state]; simp
  · by_cases declared : T.handshakeStep.isSome = true
    · refine Runs.after (q := pure ()) ?_ (.single (.initHandshake c e w fresh held made))
        (runs_pure ⟨⟨⟨?_, fun _ => declared, armed_of_not_polls rfl,
          tended_of_quiet rfl fun _ => silent⟩, ?_, ?_⟩, ?_⟩)
      · simp only [Prog.exec_modify_bind, if_pos declared]
        rfl
      all_goals simp [Conn.assign]
    · have plain : T.handshakeStep = none := Option.not_isSome_iff_eq_none.mp declared
      refine Runs.after (q := greet N fuel) ?_ (.single (.initPlain c e w fresh held made plain)) ?_
      · simp only [Prog.exec_modify_bind, if_neg declared]
        rfl
      · refine (greet_runs fuel rfl rfl ?_).weaken fun _ c' _ opened => ?_
        · exact silent
        exact ⟨opened.stepped (.inr (.inl rfl)), opened.notFresh.1, opened.notFresh.2.1⟩

theorem stepInProgress_runs (fuel : Nat) (ev : Event) {c : Conn T P} (ready : Ready c)
    (waiting : c.state = .inProgress)
    (entered : c.history.head? = some (c.state, .enter (.handleEvent ev))) :
    Runs (Move N O) (stepInProgress N fuel ev) c fun _ c' => Stepped .inProgress c' := by
  unfold stepInProgress
  by_cases writeable : ev.writeable = true
  · rw [if_pos writeable]
    refine runs_get_bind ?_
    rcases answered : N.getsockopt c.fd c.world with ⟨⟨ret, err⟩, w⟩
    by_cases failed : ret = -1 ∨ err ≠ 0
    · refine Runs.after (q := pure ()) ?_ (.single (.refused c ret err w waiting answered failed))
        (runs_pure (stepped_enterError _ _))
      simp only [Prog.exec_modify_bind]
      by_cases lost : ret = -1
      · rw [if_pos lost]; rfl
      · rw [if_neg lost, if_pos (failed.resolve_left lost)]; rfl
    · obtain ⟨answeredOk, noError⟩ := not_or.mp failed
      refine runs_modify_bind (.polled c ret err w waiting answered ⟨answeredOk, not_not.mp noError⟩) ?_
      rw [if_neg answeredOk, if_neg noError]
      exact (enterConnected_runs (c := c.polled ret err w) fuel (.inr waiting)
        (ready.connecting waiting).1 (ready.session.silent (by rw [waiting]; decide))).weaken
          fun _ _ _ post => post.1
  · rw [if_neg writeable]
    split
    · rename_i failed
      exact runs_modify (.dropped c ev waiting entered ⟨by simpa using writeable, failed⟩)
        (stepped_enterError _ _)
    · refine runs_pure ⟨ready, fun _ => { ready with begun := ?_, stepping := ?_, draining := ?_ },
        fun h => absurd waiting h⟩
      all_goals simp [waiting]

theorem stepTransport_runs (fuel : Nat) {c : Conn T P} (ready : Ready c)
    (shaking : c.state = .transport) :
    Runs (Move N O) (stepTransport N fuel) c fun _ c' => Stepped .transport c' := by
  unfold stepTransport
  have some := ready.shaking shaking
  rcases declared : T.handshakeStep with _ | f
  · rw [declared] at some; cases some
  refine (endpointHandshakeStep_runs declared shaking).bind ?_
  rintro status _ - ⟨e, w, rfl⟩
  have state : (c.handshook status e w).state = .transport := shaking
  have silent : leaving (c.handshook status e w).history = false :=
    ready.session.silent (by rw [shaking]; decide)
  cases status with
  | ok =>
      rw [if_pos rfl]
      refine runs_modify_bind (.enterProtocol _ state rfl) ?_
      refine (greet_runs fuel rfl rfl ?_).weaken fun _ _ _ opened => opened.stepped (.inr (.inr rfl))
      exact silent
  | close =>
      rw [if_neg (by simp), if_pos rfl]
      exact runs_modify (.fail _ (by rw [state]; rfl) (by simp [state])) (stepped_enterError _ _)
  | error =>
      rw [if_neg (by simp), if_neg (by simp)]
      exact runs_modify (.fail _ (by rw [state]; rfl) (by simp [state])) (stepped_enterError _ _)
  | wantRead | wantWrite =>
      rw [if_neg (by simp), if_neg (by simp)]
      refine (arm_runs (by simp)).weaken ?_
      rintro - _ - ⟨r, w', rfl, reads, writes, -⟩
      exact stepped_asked (.inl ⟨rfl, by rw [declared]; rfl⟩) state
        (tended_of_quiet (by rw [state]; rfl) fun _ => silent) rfl (by simp) reads writes

theorem stepCloseTransport_runs {c : Conn T P} (closing : c.state = .closeTransport) :
    Runs (Move N O) (stepCloseTransport N) c fun _ c' => Stepped .closeTransport c' := by
  have finished : ∀ c : Conn T P, Stepped .closeTransport (c.enterClosed N) := fun c =>
    stepped_terminal (by rw [Conn.enterClosed_state]; rfl)
  unfold stepCloseTransport
  rcases declared : T.shutdownStep with _ | f
  · exact runs_modify (.finish c closing) (finished c)
  refine (endpointShutdownStep_runs declared closing).bind ?_
  rintro status _ - ⟨e, w, rfl⟩
  have state : (c.didShutdown status e w).state = .closeTransport := closing
  cases status with
  | ok => exact runs_modify (.finish _ state) (finished _)
  | close | error =>
      exact runs_modify (.fail _ (by rw [state]; rfl) (by simp [state])) (stepped_enterError _ _)
  | wantRead | wantWrite =>
      refine (arm_runs (by simp)).weaken ?_
      rintro - _ - ⟨r, w', rfl, reads, writes, -⟩
      refine stepped_asked (.inr rfl) state (tended_of_quiet (by rw [state]; rfl) fun early => ?_)
        rfl (by simp) reads writes
      rw [state] at early
      simp [State.rank] at early

theorem stepDrainProtocol_runs (fuel : Nat) (ev : Option Event) {c : Conn T P}
    (draining : c.state = .drainProtocol) :
    Runs (Move N O) (stepDrainProtocol N fuel ev) c fun _ c' => Stepped .drainProtocol c' := by
  have drained : Runs (Move N O) (if (ev.map Event.readable).getD false then do
        transportRead N fuel (pure true) (pure ())
        modify fun c => { c with rx := c.rx.clear }
      else pure () : Method T P Unit) c fun _ c' => Drained c' := by
    split
    · refine (runs_iterate (·.state = .drainProtocol) (fun c' inv => drainTurn_runs inv) fuel c
        draining).bind ?_
      exact fun _ c' _ drained => runs_modify (.clearRx c' drained.unfed) drained
    · exact runs_pure (.inl draining)
  have quiet : ∀ c : Conn T P, c.state = .closeTransport → Stepped .drainProtocol c := by
    intro c state
    refine ⟨⟨?_, ?_, armed_of_not_polls ?_, tended_of_quiet ?_ ?_⟩, ?_, ?_⟩ <;> rw [state] <;>
      simp [State.polls, State.rank]
  refine drained.bind ?_
  rintro - c₁ - post
  have flowing : c₁.fd = -1 ∨ c₁.state.flows = true := by
    rcases post with state | ⟨-, fd, -⟩
    · exact .inr (by rw [state]; rfl)
    · exact .inl fd
  refine (transportWrite_runs fuel false flowing).bind ?_
  rintro b c₂ path ⟨-, flushed, -⟩
  cases flushed with
  | done state fd _ empty =>
      rw [if_pos rfl]
      refine (enterCloseTransport_runs ?_).weaken fun _ c' _ h => quiet c' (by rw [h]; rfl)
      rcases post with state₁ | ⟨state₁, fd₁, lost⟩
      · exact .flushed (by rw [state, state₁]; rfl) (by rwa [fd]) (by simp [state, state₁])
      · exact .lost (state.trans state₁) (fd.trans fd₁) (occurs_of_suffix (path_suffix path) lost)
  | closed _ _ state _ _ _ => exact runs_pure (quiet c₂ state)
  | failed _ _ state _ _ => exact runs_pure (stepped_terminal (by rw [state]; rfl))
  | blocked _ held state fd wakes kept _ _ =>
      have state₂ : c₂.state = .drainProtocol := by
        rcases post with h | ⟨-, idle, -⟩
        · exact state.trans h
        · exact absurd idle held
      have ready : Ready c₂ := by
        refine ⟨?_, ?_, armed_of_not_polls ?_, tended_of_quiet ?_ ?_⟩ <;> rw [state₂] <;>
          simp [State.polls, State.rank]
      refine runs_pure ⟨ready, fun _ => { ready with begun := ?_, stepping := ?_, draining := ?_ }, ?_⟩
      · rw [state₂]; simp
      · rw [state₂]; simp
      · exact fun _ => ⟨kept, wakes.mono (by simp) id⟩
      · exact fun h => absurd state₂ h

/-- A turn of `steps` in `in_progress` is the first one, for the event just handed in. -/
def Entered (ev : Option Event) (c : Conn T P) : Prop :=
  ∀ e, ev = some e → c.state = .inProgress →
    c.history.head? = some (c.state, .enter (.handleEvent e))

theorem settle_runs {s : State} {step : Method T P Unit} {ev : Option Event} {c : Conn T P}
    (stepped : Runs (Move N O) step c fun _ c' => Stepped s c') :
    Runs (Move N O) (Prog.settle (fun c' => c'.state = s) step) c
      (Turn (fun c' => Ready c' ∧ Entered ev c') fun _ c' => Settled c') := by
  refine stepped.settle.weaken fun _ c' _ turn => turn.imp ?_ ?_
  · rintro ⟨⟨ready, -, moved⟩, other⟩
    exact ⟨ready, fun _ _ waiting => absurd waiting (moved other)⟩
  · rintro - ⟨⟨-, settled, -⟩, same⟩
    exact settled same

theorem stepsTurn_runs (fuel : Nat) (ev : Option Event) {c : Conn T P} (ready : Ready c)
    (entered : Entered ev c) :
    Runs (Move N O) (stepsTurn N fuel ev) c
      (Turn (fun c' => Ready c' ∧ Entered ev c') fun _ c' => Settled c') := by
  have waits : c.state = .inProgress ∨ c.state.polls = true → Settled c := by
    intro waiting
    refine { ready with begun := ?_, stepping := ?_, draining := ?_ } <;>
      rcases waiting with h | h <;> revert h <;> cases c.state <;> simp [State.polls]
  refine runs_get_bind ?_
  cases state : c.state with
  | uninitialized => exact runs_modify_bind (.unreachable c state) runs_failure
  | inProgress =>
      rcases ev with _ | ev
      · exact runs_pure (waits (.inl state))
      · exact settle_runs (stepInProgress_runs fuel ev ready state (entered ev rfl state))
  | transport => exact settle_runs (stepTransport_runs fuel ready state)
  | protocol =>
      rcases ev with _ | ev
      · exact runs_pure (waits (.inr (by rw [state]; rfl)))
      · exact settle_runs ((readWrite_runs fuel rfl (consumeProtocol_runs fuel) ev state
          (ready.open (by rw [state]; rfl))).weaken fun _ _ _ opened => opened.stepped (.inl rfl))
  | closeProtocol =>
      rcases ev with _ | ev
      · exact runs_pure (waits (.inr (by rw [state]; rfl)))
      · exact settle_runs ((readWrite_runs fuel rfl (consumeClose_runs fuel) ev state
          (ready.open (by rw [state]; rfl))).weaken fun _ _ _ opened => opened.stepped (.inl rfl))
  | drainProtocol => exact settle_runs (stepDrainProtocol_runs fuel ev state)
  | closeTransport => exact settle_runs (stepCloseTransport_runs state)
  | closed | error => exact runs_pure (settled_terminal (by rw [state]; rfl))

theorem steps_runs (fuel : Nat) (ev : Option Event) {c : Conn T P} (ready : Ready c)
    (entered : Entered ev c) : Runs (Move N O) (steps N fuel ev) c fun _ c' => Settled c' :=
  runs_iterate (fun c' => Ready c' ∧ Entered ev c')
    (fun _ inv => stepsTurn_runs fuel ev inv.1 inv.2) fuel c ⟨ready, entered⟩

/-! ## Entry points -/

theorem silent_dialed (c : Conn T P) : leaving (c.begin.dial N).2.history = false :=
  Conn.dial_unread N (fun _ _ _ => rfl) (fun _ _ _ => rfl) c.begin

theorem afterDial_runs (fuel : Nat) (result : DialResult) {c : Conn T P}
    (fresh : c.state = .uninitialized) (dialed : c.fd = result.fd)
    (silent : leaving c.history = false) :
    Runs (Move N O) (afterDial N fuel result) c fun _ c' => Settled c' := by
  unfold afterDial
  by_cases failed : result.fd = -1
  · rw [if_pos failed]
    exact runs_modify (.dialFailed c fresh (dialed.trans failed)) (settled_terminal rfl)
  have held : c.fd ≠ -1 := dialed ▸ failed
  rw [if_neg failed]
  by_cases pending : result.err = some .einprogress
  · rw [if_pos pending]
    refine Runs.after (q := pure ()) rfl (.single (.dialPending c fresh held)) (runs_pure ?_)
    have ready : Ready ((c.assign .inProgress).subscribe N false true) :=
      ⟨fun _ => ⟨held, wakes_subscribe _ _ _⟩, fun h => (by cases h), armed_of_not_polls rfl,
        tended_of_quiet rfl fun _ => silent⟩
    refine { ready with begun := ?_, stepping := ?_, draining := ?_ } <;>
      simp [Conn.subscribe, Conn.assign, Conn.log]
  · rw [if_neg pending]
    refine (enterConnected_runs fuel (.inl fresh) held silent).bind ?_
    rintro - c' - ⟨stepped, -, -⟩
    exact steps_runs fuel none stepped.ready fun _ h => by cases h

/-- A connection between two calls. -/
structure Rest (c : Conn T P) : Prop extends Ready c where
  grounded : Grounded c
  shaken : Shaken c
  unborn : c.state = .uninitialized → c.fd = -1
  stepping : c.state = .transport ∨ c.state = .closeTransport →
    (asked c.history = some .wantRead → Wakes c true false) ∧
      (asked c.history = some .wantWrite → Wakes c false true)
  draining : c.state = .drainProtocol → Draining c

theorem Settled.rest {c : Conn T P} (settled : Settled c) (grounded : Grounded c)
    (shaken : Shaken c) : Rest c where
  toReady := settled.toReady
  grounded := grounded
  shaken := shaken
  unborn h := absurd h settled.begun
  draining := settled.draining
  stepping h := by
    rcases settled.stepping h with ⟨answer, wakes⟩ | ⟨answer, wakes⟩
    · exact ⟨fun _ => wakes, fun h => by rw [answer] at h; cases h⟩
    · exact ⟨fun h => (by rw [answer] at h; cases h), fun _ => wakes⟩

theorem Rest.entered {c : Conn T P} (rest : Rest c) {entry : Entry}
    (staying : entry = .stop → c.state ≠ .protocol) : Rest (c.log (.enter entry)) where
  connecting := rest.connecting
  shaking := rest.shaking
  polling := rest.polling
  session := by
    have same : leaving (c.log (.enter entry)).history = leaving c.history := by
      cases entry with
      | stop => simp [Conn.log, leaving, staying rfl]
      | _ => rfl
    have attentive := rest.session.attentive
    exact ⟨fun early => same.trans (rest.session.silent early),
      ⟨fun running => same.trans (attentive.staying running), attentive.idle⟩, rest.session.undone⟩
  grounded := rest.grounded
  shaken := rest.shaken
  unborn := rest.unborn
  stepping := rest.stepping
  draining := rest.draining

theorem make_rest (host : String) (port : UInt16) (tc : T.Config) (pc : P.Config) (w : ω) :
    Rest (Conn.make host port tc pc w : Conn T P) := by
  have ready : Ready (Conn.make host port tc pc w : Conn T P) :=
    ⟨fun h => (by cases h), fun h => (by cases h), armed_of_not_polls rfl,
      tended_of_quiet rfl fun _ => rfl⟩
  have shaken : Shaken (Conn.make host port tc pc w : Conn T P) :=
    ⟨fun _ => rfl, fun h => (by cases h)⟩
  refine { ready with
    grounded := fun _ => rfl, shaken, unborn := fun _ => rfl, stepping := ?_, draining := ?_ }
  · rintro (h | h) <;> cases h
  · intro h
    cases h

/-- The calls that take the machine further, rather than return at once. -/
def Entry.effective (c : Conn T P) : Entry → Prop
  | .attach _ => c.cookie = 0
  | .restart => c.state.terminal = true
  | .handleEvent _ | .stop => True
  | .heartbeat | .destruct => False

theorem heartbeat_runs (fuel : Nat) {c : Conn T P} (rest : Rest c)
    (entered : c.history.head? = some (c.state, .enter .heartbeat)) :
    Runs (Move N O) (heartbeat N fuel) c fun _ c' => Grounded c' → Shaken c' → Rest c' := by
  unfold heartbeat
  rcases declared : P.heartbeat with _ | f
  · exact runs_pure fun _ _ => rest
  refine runs_get_bind ?_
  by_cases running : c.state = .protocol
  swap
  · rw [if_neg running]
    exact runs_pure fun _ _ => rest
  rw [if_pos running]
  refine (sessionHeartbeat_runs declared running rest.session.attentive entered).bind ?_
  rintro - _ - ⟨s, tx, w, rfl⟩
  have state : (c.beaten s tx w).state = .protocol := running
  have flows : (c.beaten s tx w).state.flows = true := by rw [state]; rfl
  have attentive : Attentive (c.beaten s tx w) :=
    ⟨rest.session.attentive.staying, rest.session.attentive.idle⟩
  refine (transportWrite_runs fuel true (.inr flows)).bind ?_
  rintro b c' - ⟨unheard, flushed, rearmed⟩
  have flowing : Flowing c' :=
    flushed.flowing unheard (.inl flows) rest.session.undone fun h => rearmed h rfl
  have opened : Open c' :=
    { flowing with attentive := unheard.attentive attentive fun polls => flushed.still polls rfl }
  refine runs_pure fun grounded shaken =>
    { opened.ready with
      grounded, shaken, unborn := fun h => absurd h opened.notFresh.1, stepping := ?_, draining := ?_ }
  · -- a write answered `close` leaves `close_transport`, with nothing asked for yet
    intro _
    have quiet : asked c'.history ≠ some .wantRead ∧ asked c'.history ≠ some .wantWrite := by
      rw [unheard.same asked_skips]
      exact rest.shaken.2 running
    exact ⟨fun h => absurd h quiet.1, fun h => absurd h quiet.2⟩
  · intro drain
    cases flushed with
    | done h | blocked _ _ h => rw [h, state] at drain; cases drain
    | closed _ _ h | failed _ _ h => rw [h] at drain; cases drain

/-- What `stop` does first. -/
inductive Quits (N : Backend ω) (c : Conn T P) : Conn T P → Prop where
  | early (early : c.state = .uninitialized ∧ c.fd = -1 ∨ c.state = .inProgress) :
      Quits N c ((c.log (.enter .stop)).enterClosed N)
  | transport (early : c.state = .transport ∨ c.state = .protocol ∧ P.onShutdown = none) :
      Quits N c ((c.log (.enter .stop)).assign .closeTransport)
  | protocol (running : c.state = .protocol) (staying : leaving c.history = false) :
      Quits N c ((c.log (.enter .stop)).assign .closeProtocol)
  | already (late : 3 < c.state.rank) : Quits N c (c.log (.enter .stop))

theorem Quits.path {c c' : Conn T P} (quits : Quits N c c') :
    ReflTransGen (Move N O) (c.log (.enter .stop)) c' := by
  cases quits with
  | early early => exact .single (.stop _ early rfl)
  | transport early => exact .single (.closeTransport _ (.stopped rfl early))
  | protocol running staying =>
      have word : leaving (c.log (.enter .stop)).history = true := by
        simp [Conn.log, leaving, running]
      exact .single (.closeProtocol _ running word (dismissed_of_leaving (h := c.history) staying))
  | already => exact .refl

/-- Then it goes on from there. -/
theorem stop_quits (fuel : Nat) {c : Conn T P} (rest : Rest c) :
    ∃ (c₁ : Conn T P) (later : Method T P Unit), Quits N c c₁ ∧
      (stop N fuel).exec (c.log (.enter .stop)) = later.exec c₁ ∧
      Runs (Move N O) later c₁ fun _ c' => Settled c' := by
  have steps : ∀ {c₁ : Conn T P}, Ready c₁ →
      Runs (Move N O) (steps N fuel none) c₁ fun _ c' => Settled c' :=
    fun ready => steps_runs fuel none ready fun _ h => by cases h
  have closed : Ready ((c.log (.enter .stop)).enterClosed N) :=
    (settled_terminal (by rw [Conn.enterClosed_state]; rfl)).toReady
  have leaves : Ready ((c.log (.enter .stop)).assign .closeTransport) :=
    (left_closeTransport _).open.ready
  cases state : c.state with
  | uninitialized =>
      refine ⟨_, _, .early (.inl ⟨state, rest.unborn state⟩), ?_, steps closed⟩
      simp only [stop, Prog.exec_get_bind, show (c.log (.enter .stop)).state = _ from state]
      rfl
  | inProgress =>
      refine ⟨_, _, .early (.inr state), ?_, steps closed⟩
      simp only [stop, Prog.exec_get_bind, show (c.log (.enter .stop)).state = _ from state]
      rfl
  | transport =>
      refine ⟨_, _, .transport (.inl state), ?_, steps leaves⟩
      simp only [stop, Prog.exec_get_bind, show (c.log (.enter .stop)).state = _ from state]
      rfl
  | protocol =>
      have staying := rest.session.attentive.staying state
      rcases declared : P.onShutdown with _ | f
      · refine ⟨_, _, .transport (.inr ⟨state, declared⟩), ?_, steps leaves⟩
        simp only [stop, Prog.exec_get_bind, show (c.log (.enter .stop)).state = _ from state,
          enterCloseProtocol, declared]
        rfl
      · have shut := runs_iterate (R := Move N O) (Q := fun _ c' => Left c') Parting
          (fun c' parting => shutdownTurn_runs fuel declared parting) fuel
          ((c.log (.enter .stop)).assign .closeProtocol)
          ⟨rfl, dismissed_of_leaving (h := c.history) staying⟩
        refine ⟨_, _, .protocol state staying, ?_,
          shut.bind fun _ c' _ left => steps left.open.ready⟩
        simp only [stop, Prog.exec_get_bind, show (c.log (.enter .stop)).state = _ from state,
          enterCloseProtocol, declared]
        rfl
  | closeProtocol | drainProtocol | closeTransport | closed | error =>
      refine ⟨_, _, .already (by rw [state]; decide), ?_,
        steps (rest.entered fun _ => by rw [state]; simp).toReady⟩
      simp only [stop, Prog.exec_get_bind, show (c.log (.enter .stop)).state = _ from state]
      rfl

theorem stop_runs (fuel : Nat) {c : Conn T P} (rest : Rest c) :
    Runs (Move N O) (stop N fuel) (c.log (.enter .stop)) fun _ c' => Settled c' := by
  obtain ⟨c₁, later, quits, executed, runs⟩ := stop_quits fuel rest
  exact .after executed quits.path runs

/-- A method that settles a connection leaves it at rest. -/
theorem rested {p : Method T P Unit} {c : Conn T P}
    (runs : Runs (Move N O) p c fun _ c' => Settled c') (grounded : Grounded c) (shaken : Shaken c) :
    Runs (Move N O) p c fun _ c' => Settled c' ∧ Rest c' :=
  runs.weaken fun _ _ path settled =>
    ⟨settled, settled.rest (path_grounded path grounded) (path_shaken path shaken)⟩

theorem handleEvent_runs (fuel : Nat) (ev : Event) {c : Conn T P} (rest : Rest c) :
    Runs (Move N O) (handleEvent N fuel ev) (c.log (.enter (.handleEvent ev)))
      fun _ c' => Settled c' := by
  refine steps_runs fuel (some ev) (rest.entered (by simp)).toReady ?_
  intro e same _
  cases same
  rfl

/-- The connection after a first `attach` has dialed. -/
def Conn.attached (N : Backend ω) (c : Conn T P) (k : Nat) : Conn T P :=
  ({ c.log (.enter (.attach k)) with cookie := k }.begin.dial N).2

/-- A first `attach` dials, and goes on from there. -/
theorem attach_dials (fuel : Nat) (k : Nat) {c : Conn T P} (unattached : c.cookie = 0) :
    ∃ later : Method T P Unit, (enter N fuel (.attach k)).exec c = later.exec (c.attached N k) ∧
      Runs (Move N O) later (c.attached N k) fun _ c' => Settled c' := by
  refine ⟨afterDial N fuel ({ c.log (.enter (.attach k)) with cookie := k }.begin.dial N).1, ?_,
    afterDial_runs fuel _ rfl rfl (silent_dialed _)⟩
  have zero : ¬ (c.log (.enter (.attach k))).cookie ≠ 0 := not_not.mpr unattached
  simp only [enter, attach, Prog.exec_modify_bind, Prog.exec_get_bind, if_neg zero]
  rfl

/-- The connection after a `restart` has dialed. -/
def Conn.restarted (N : Backend ω) (c : Conn T P) : Conn T P :=
  ((c.log (.enter .restart)).renew.begin.dial N).2

theorem restart_dials (fuel : Nat) {c : Conn T P} (rest : Rest c) (done : c.state.terminal = true) :
    ∃ later : Method T P Unit, (enter N fuel .restart).exec c = later.exec (c.restarted N) ∧
      Runs (Move N O) later (c.restarted N) fun _ c' => Settled c' := by
  refine ⟨afterDial N fuel ((c.log (.enter .restart)).renew.begin.dial N).1, ?_,
    afterDial_runs fuel _ rfl rfl (silent_dialed _)⟩
  have idle : (c.log (.enter .restart)).fd = -1 := rest.grounded done
  have finished : (c.log (.enter .restart)).done = true := by
    rw [Conn.done_eq_terminal]
    exact done
  simp only [enter, restart, Prog.exec_get_bind, Prog.exec_modify_bind, if_pos finished,
    Conn.teardown_idle N idle, enterUninitialized]
  rfl

/-- What any call but the destructor leaves. -/
theorem enter_runs (fuel : Nat) (entry : Entry) (alive : entry ≠ .destruct) {c : Conn T P}
    (rest : Rest c) :
    Runs (Step N) (enter N fuel entry) c fun _ c' =>
      Rest c' ∧ (entry.effective c → Settled c') := by
  have settled : ∀ {p : Method T P Unit}, Runs (Step N) p c (fun _ c' => Settled c') →
      Runs (Step N) p c fun _ c' => Rest c' ∧ (entry.effective c → Settled c') :=
    fun runs => (rested runs rest.grounded rest.shaken).weaken fun _ _ _ post =>
      ⟨post.2, fun _ => post.1⟩
  have first : (∀ k, entry = .attach k → c.cookie ≠ 0) → Step N c (c.log (.enter entry)) :=
    fun fixed => .enter c entry fixed trivial
  cases entry with
  | attach k =>
      by_cases attached : c.cookie ≠ 0
      · refine runs_modify_bind (first fun _ _ => attached) (runs_get_bind ?_)
        rw [if_pos (show (c.log (.enter (.attach k))).cookie ≠ 0 from attached)]
        exact runs_pure ⟨rest.entered (by simp), fun h => absurd h attached⟩
      · have zero := not_not.mp attached
        obtain ⟨later, executed, runs⟩ := attach_dials (N := N) (O := True) fuel k zero
        exact settled (.after executed (.single (.attach c k zero trivial)) runs)
  | handleEvent ev =>
      exact settled (runs_modify_bind (first (by simp)) (handleEvent_runs fuel ev rest))
  | heartbeat =>
      refine (runs_modify_bind (first (by simp))
        (heartbeat_runs fuel (rest.entered (by simp)) rfl)).weaken ?_
      intro _ c' path post
      exact ⟨post (path_grounded path rest.grounded) (path_shaken path rest.shaken),
        fun h => h.elim⟩
  | stop => exact settled (runs_modify_bind (first (by simp)) (stop_runs fuel rest))
  | restart =>
      by_cases done : c.state.terminal = true
      · obtain ⟨later, executed, runs⟩ := restart_dials (N := N) (O := True) fuel rest done
        have dial : Step N (c.log (.enter .restart)) (c.restarted N) :=
          .restart _ done (rest.grounded done) rfl trivial
        exact settled (.after executed ((ReflTransGen.single (first (by simp))).tail dial) runs)
      · refine runs_modify_bind (first (by simp)) (runs_get_bind ?_)
        rw [if_neg (by rw [Conn.done_eq_terminal]; exact done)]
        exact runs_pure ⟨rest.entered (by simp), fun h => absurd h done⟩
  | destruct => exact absurd rfl alive

/-- Where a run from `c₀` ends: at a point of a path of `Step`, or with the
destructor, called on a connection at rest. -/
inductive Reached (N : Backend ω) (c₀ : Conn T P) (entries : List Entry) :
    Option Unit → Conn T P → Prop where
  | alive {r : Option Unit} {c : Conn T P} (path : ReflTransGen (Step N) c₀ c)
      (rest : r = some () → Rest c ∧ .destruct ∉ entries) : Reached N c₀ entries r c
  | destructed {c c' : Conn T P} (path : ReflTransGen (Step N) c₀ c) (rest : Rest c)
      (torn : c' = (c.log (.enter .destruct)).teardown N) (member : .destruct ∈ entries) :
      Reached N c₀ entries (some ()) c'

/-- What every step keeps, and the destructor too, holds where a run ends. -/
theorem Reached.invariant {inv : Conn T P → Prop} {c₀ : Conn T P} {entries : List Entry}
    {r : Option Unit} {c : Conn T P} (reached : Reached N c₀ entries r c)
    (keeps : ∀ c c', Step N c c' → inv c → inv c')
    (torn : ∀ c, inv c → inv ((c.log (.enter .destruct)).teardown N)) (start : inv c₀) : inv c := by
  cases reached with
  | alive path _ => exact path_invariant keeps path start
  | destructed path _ last _ =>
      subst last
      exact torn _ (path_invariant keeps path start)

/-- A call that leaves the connection at rest, then further calls. -/
theorem Reached.after {p : Method T P Unit} (fuel : Nat) (later : List Entry) {c : Conn T P}
    (first : Runs (Step N) p c fun _ c' => Rest c')
    (next : ∀ c' : Conn T P, Rest c' →
      Reached N c' later ((exec N fuel later).exec c').1 ((exec N fuel later).exec c').2) :
    Reached N c later ((p >>= fun _ => exec N fuel later).exec c).1
      ((p >>= fun _ => exec N fuel later).exec c).2 := by
  obtain ⟨path, post⟩ := first
  rcases executed : p.exec c with ⟨_ | u, c₁⟩
  · rw [executed] at path
    rw [Prog.exec_bind_none executed]
    exact .alive path fun h => by cases h
  · rw [executed] at path post
    rw [Prog.exec_bind_some executed]
    have further := next c₁ (post u rfl)
    generalize (exec N fuel later).exec c₁ = final at further
    obtain ⟨r, c'⟩ := final
    cases further with
    | alive path' rest => exact .alive (path.trans path') rest
    | destructed path' rest torn member => exact .destructed (path.trans path') rest torn member

theorem exec_cons (fuel : Nat) {entry : Entry} (alive : entry ≠ .destruct) (later : List Entry) :
    exec N fuel (entry :: later) =
      (enter N fuel entry >>= fun _ => exec N fuel later : Method T P Unit) := by
  cases entry <;> first | rfl | exact absurd rfl alive

/-- **Every run of a connection is a path of `Step`**, whether or not it returns. -/
theorem exec_reached (fuel : Nat) (entries : List Entry) {c : Conn T P} (rest : Rest c) :
    Reached N c entries ((exec N fuel entries).exec c).1 ((exec N fuel entries).exec c).2 := by
  induction entries generalizing c with
  | nil => exact .alive .refl fun _ => ⟨rest, List.not_mem_nil⟩
  | cons entry later ih =>
      by_cases last : entry = .destruct
      · subst last
        exact .destructed .refl rest rfl List.mem_cons_self
      rw [exec_cons fuel last]
      have reached := Reached.after (N := N) fuel later
        ((enter_runs fuel entry last rest).weaken fun _ _ _ post => post.1) fun _ => ih
      generalize Prog.exec _ c = final at reached
      obtain ⟨r, c'⟩ := final
      cases reached with
      | alive path rest' =>
          refine .alive path fun h => ⟨(rest' h).1, ?_⟩
          simp [Ne.symm last, (rest' h).2]
      | destructed path rest' torn member =>
          exact .destructed path rest' torn (List.mem_cons_of_mem _ member)

/-- A run that begins with `attach` is a path from there. -/
theorem exec_attach_reached (fuel : Nat) (k : Nat) (later : List Entry) {c : Conn T P}
    (rest : Rest c) (unattached : c.cookie = 0) :
    Reached N (c.attached N k) later ((exec N fuel (.attach k :: later)).exec c).1
      ((exec N fuel (.attach k :: later)).exec c).2 := by
  have first : Step N c (c.attached N k) := .attach c k unattached trivial
  obtain ⟨dialed, executed, runs⟩ := attach_dials (N := N) (O := True) fuel k unattached
  have rested := rested runs (first.grounded rest.grounded) (first.shaken rest.shaken)
  have reached := Reached.after fuel later (rested.weaken fun _ _ _ post => post.2) fun _ =>
    exec_reached fuel later
  have unfolded : (exec N fuel (.attach k :: later)).exec c =
      (dialed >>= fun _ => exec N fuel later).exec (c.attached N k) := by
    rw [exec_cons fuel (by simp), Prog.exec_bind, Prog.exec_bind, executed]
  rw [unfolded]
  exact reached

end Manet.Reactor
