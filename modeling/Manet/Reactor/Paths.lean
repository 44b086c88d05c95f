/-
# Manet.Reactor.Paths — the methods follow the step relation

One lemma per method of the connection, from the calls on its endpoint and its
session up to the read and write loops (`Manet.Reactor.Machine` has the rest).
Each says that from the states the method is called in it only takes steps of
`Step`, whatever it is answered, and what holds if it returns.  What holds at a
return is about three things:

* the state the machine can be in, so that the caller's next step is one of
  `Step`'s;
* the interest last registered (`Wakes`, `Armed`): which events the connection
  will hear of;
* the session's turn (`Attentive`, `Undone`): while it is fed it stays and nothing
  is due to it, and while it shuts down it has not said its last word.
-/
import Manet.Reactor.Step
import Manet.Reactor.Turns

namespace Manet.Reactor

open Manet.Flow Manet.Net Relation

set_option autoImplicit false

variable {ω : Type} {N : Backend ω} {O : Prop} {T : Transport.Layer ω} {P : Protocol.Layer ω}

/-- The last subscription includes reading if `r`, writing if `w`. -/
def Wakes (c : Conn T P) (r w : Bool) : Prop :=
  ∃ r' w', interest c.fd c.history = some (r', w') ∧ (r = true → r' = true) ∧ (w = true → w' = true)

/-- While the session is fed, the connection hears of bytes to read, and of room to
write if it has something to send. -/
def Armed (c : Conn T P) : Prop :=
  c.fd ≠ -1 → c.state.polls = true → Wakes c true (c.tx.rsize ≠ 0)

/-- A session that shuts down has not said its last word. -/
def Undone (c : Conn T P) : Prop := c.state = .closeProtocol → dismissed c.history = false

/-- What a call on the session leaves, apart from what is due to the session. -/
structure Flowing (c : Conn T P) : Prop where
  flows : c.state.flows = true ∨ c.state = .error ∧ c.fd = -1
  armed : Armed c
  undone : Undone c

/-- What a turn of the session leaves. -/
structure Open (c : Conn T P) : Prop extends Flowing c where
  attentive : Attentive c

/-- The session is no longer fed, and has been asked to shut down if it is still called. -/
structure Left (c : Conn T P) : Prop extends Flowing c where
  unfed : c.state ≠ .protocol
  idle : c.state.polls = true → owed P.onConnect.isSome c.history = false

theorem Left.open {c : Conn T P} (left : Left c) : Open c :=
  { left with attentive := ⟨fun running => absurd running left.unfed, left.idle⟩ }

theorem attentive_of_not_polls {c : Conn T P} (quiet : c.state.polls = false) : Attentive c where
  staying running := by
    rw [running] at quiet
    cases quiet
  idle polls := by
    rw [quiet] at polls
    cases polls

theorem wakes_subscribe (c : Conn T P) (r w : Bool) : Wakes (c.subscribe N r w) r w :=
  ⟨r, w, by simp [Conn.subscribe, Conn.log, interest], id, id⟩

theorem Wakes.mono {c : Conn T P} {r w r' w' : Bool} (wakes : Wakes c r w)
    (reads : r' = true → r = true) (writes : w' = true → w = true) : Wakes c r' w' := by
  obtain ⟨r₀, w₀, last, hr, hw⟩ := wakes
  exact ⟨r₀, w₀, last, fun h => hr (reads h), fun h => hw (writes h)⟩

theorem armed_of_not_polls {c : Conn T P} (quiet : c.state.polls = false) : Armed c := by
  intro _ polls
  rw [quiet] at polls
  cases polls

theorem left_of_not_polls {c : Conn T P}
    (flows : c.state.flows = true ∨ c.state = .error ∧ c.fd = -1) (quiet : c.state.polls = false) :
    Left c where
  flows := flows
  armed := armed_of_not_polls quiet
  undone state := by
    rw [state] at quiet
    cases quiet
  unfed state := by
    rw [state] at quiet
    cases quiet
  idle := (attentive_of_not_polls quiet).idle

theorem left_closeTransport (c : Conn T P) : Left (c.assign .closeTransport) :=
  left_of_not_polls (.inl rfl) rfl

theorem left_drainProtocol (c : Conn T P) : Left (c.assign .drainProtocol) :=
  left_of_not_polls (.inl rfl) rfl

theorem left_enterError (c : Conn T P) : Left (c.enterError N) := by
  refine left_of_not_polls (.inr ⟨c.enterError_state N, Conn.teardown_fd N _⟩) ?_
  rw [c.enterError_state N]
  rfl

/-- What was written or failed to be written in between cannot be told from the bytes
read, nor by a reading that passes over writes. -/
structure Unheard (c c' : Conn T P) : Prop where
  rx : c'.rx = c.rx
  same : ∀ {α : Type} {f : History → α}, Skips f → f c'.history = f c.history

theorem Unheard.refl (c : Conn T P) : Unheard c c := ⟨rfl, fun _ => rfl⟩

theorem Unheard.trans {c c₁ c₂ : Conn T P} (first : Unheard c c₁) (second : Unheard c₁ c₂) :
    Unheard c c₂ :=
  ⟨second.rx.trans first.rx, fun skips => (second.same skips).trans (first.same skips)⟩

theorem Unheard.subscribed {c c' : Conn T P} (unheard : Unheard c c') (r w : Bool) :
    Unheard c (c'.subscribe N r w) :=
  ⟨unheard.rx, fun skips => (skips.net _ _ _).trans (unheard.same skips)⟩

theorem unheard_didWrite (c : Conn T P) (status : Transport.Status) (e : T.Endpoint)
    (tx : Buffer TX_CAP) (w : ω) : Unheard c (c.didWrite status e tx w) :=
  ⟨rfl, fun skips => skips.write _ _ _ _ _⟩

theorem Unheard.assigned {c c' : Conn T P} (unheard : Unheard c c') {s : State}
    (other : s ≠ .protocol) : Unheard c (c'.assign s) :=
  ⟨unheard.rx, fun skips => (skips.assign _ _ _ other).trans (unheard.same skips)⟩

theorem Unheard.failed {c c' : Conn T P} (unheard : Unheard c c') : Unheard c (c'.enterError N) where
  rx := (Conn.teardown_rx N _).trans unheard.rx
  same skips := (Conn.enterError_unread N skips c').trans (unheard.same skips)

theorem Unheard.attentive {c c' : Conn T P} (unheard : Unheard c c') (attentive : Attentive c)
    (still : c'.state.polls = true → c.state = c'.state) : Attentive c' where
  staying running := by
    rw [unheard.same leaving_skips]
    exact attentive.staying ((still (by rw [running]; rfl)).trans running)
  idle polls := by
    rw [unheard.same (owed_skips _)]
    exact attentive.idle (still polls ▸ polls)

theorem Unheard.undone {c c' : Conn T P} (unheard : Unheard c c') (undone : Undone c)
    (still : c'.state = .closeProtocol → c.state = .closeProtocol) : Undone c' := by
  intro closing
  rw [unheard.same dismissed_skips]
  exact undone (still closing)

/-! ## Calls -/

theorem endpointHandshakeStep_runs {f : T.Endpoint → ω → Option (Transport.Status × T.Endpoint × ω)}
    {c : Conn T P} (declared : T.handshakeStep = some f) (shaking : c.state = .transport) :
    Runs (Move N O) (endpointHandshakeStep f) c fun status c' =>
      ∃ e w, c' = c.handshook status e w := by
  refine runs_get_bind ?_
  rcases answered : f c.transport c.world with _ | ⟨status, e, w⟩
  · exact runs_modify_bind (.noReturn c _ shaking) runs_failure
  · exact runs_modify_bind (.handshake c f status e w declared shaking answered)
      (runs_pure ⟨e, w, rfl⟩)

theorem endpointShutdownStep_runs {f : T.Endpoint → ω → Option (Transport.Status × T.Endpoint × ω)}
    {c : Conn T P} (declared : T.shutdownStep = some f) (closing : c.state = .closeTransport) :
    Runs (Move N O) (endpointShutdownStep f) c fun status c' =>
      ∃ e w, c' = c.didShutdown status e w := by
  refine runs_get_bind ?_
  rcases answered : f c.transport c.world with _ | ⟨status, e, w⟩
  · exact runs_modify_bind (.noReturn c _ closing) runs_failure
  · exact runs_modify_bind (.shutdown c f status e w declared closing answered)
      (runs_pure ⟨e, w, rfl⟩)

theorem endpointRead_runs {c : Conn T P} (reading : c.state.reads = true)
    (room : c.rx.full = false) (attentive : Attentive c) :
    Runs (Move N O) endpointRead c fun status c' => ∃ e rx w,
      T.read c.transport c.rx c.world = some (status, e, rx, w) ∧ c' = c.didRead status e rx w := by
  refine runs_get_bind ?_
  rcases answered : T.read c.transport c.rx c.world with _ | ⟨status, e, rx, w⟩
  · exact runs_modify_bind (.noReturn c _ ⟨reading, rfl, room⟩) runs_failure
  · exact runs_modify_bind (.read c status e rx w reading room answered attentive)
      (runs_pure ⟨e, rx, w, rfl, rfl⟩)

theorem endpointWrite_runs {c : Conn T P} (flowing : c.state.flows = true) (held : c.fd ≠ -1)
    (unsent : c.tx.rsize ≠ 0) :
    Runs (Move N O) endpointWrite c fun status c' => ∃ e tx w,
      T.write c.transport c.tx c.world = some (status, e, tx, w) ∧
        c' = c.didWrite status e tx w := by
  refine runs_get_bind ?_
  rcases answered : T.write c.transport c.tx c.world with _ | ⟨status, e, tx, w⟩
  · exact runs_modify_bind (.noReturn c _ ⟨flowing, held, rfl⟩) runs_failure
  · exact runs_modify_bind (.write c status e tx w flowing held unsent answered)
      (runs_pure ⟨e, tx, w, rfl, rfl⟩)

theorem sessionHandler_runs {kind : Protocol.HandlerKind} {f : Protocol.Handler P.Session ω}
    {c : Conn T P} (handles : Handles c kind f) :
    Runs (Move N O) (sessionHandler kind f) c fun status c' => ∃ s io w,
      f c.protocol ⟨c.rx, c.tx⟩ c.world = some (status, s, io, w) ∧
        c' = c.handled kind status s io w := by
  refine runs_get_bind ?_
  rcases answered : f c.protocol ⟨c.rx, c.tx⟩ c.world with _ | ⟨status, s, io, w⟩
  · exact runs_modify_bind (.noReturn c _ ⟨rfl, f, handles⟩) runs_failure
  · exact runs_modify_bind (.handler c kind f status s io w handles answered)
      (runs_pure ⟨s, io, w, rfl, rfl⟩)

theorem sessionHeartbeat_runs
    {f : P.Session → Buffer TX_CAP → ω → Option (P.Session × Buffer TX_CAP × ω)}
    {c : Conn T P} (declared : P.heartbeat = some f) (running : c.state = .protocol)
    (attentive : Attentive c) (entered : c.history.head? = some (c.state, .enter .heartbeat)) :
    Runs (Move N O) (sessionHeartbeat f) c fun _ c' => ∃ s tx w, c' = c.beaten s tx w := by
  refine runs_get_bind ?_
  rcases answered : f c.protocol c.tx c.world with _ | ⟨s, tx, w⟩
  · exact runs_modify_bind (.noReturn c _ ⟨running, attentive⟩) runs_failure
  · exact runs_modify (.heartbeat c f s tx w declared running answered attentive entered)
      ⟨s, tx, w, rfl⟩

theorem enterCloseTransport_runs {c : Conn T P} (closes : Closes c) :
    Runs (Move N O) enterCloseTransport c fun _ c' => c' = c.assign .closeTransport :=
  runs_modify (.closeTransport c closes) rfl

/-- `arm` on a status that asks for an event. -/
theorem arm_runs {status : Transport.Status} {c : Conn T P}
    (asks : status = .wantRead ∨ status = .wantWrite) :
    Runs (Move N O) (arm N status) c fun _ c' => ∃ r w, c' = c.subscribe N r w ∧
      (status = .wantRead → r = true) ∧ (status = .wantWrite → w = true) ∧
      (c.state.polls = true → r = true) ∧ (c.tx.rsize ≠ 0 → w = true) := by
  rcases asks with rfl | rfl
  · refine runs_modify (.subscribe c _ _) ⟨_, _, rfl, ?_⟩
    simp
  · refine runs_modify (.subscribe c _ _) ⟨_, _, rfl, ?_⟩
    simp [State.polls_iff]

/-! ## Writing -/

/-- How an attempt to flush ends. -/
inductive Flushed (c : Conn T P) : Bool → Conn T P → Prop where
  | done {c' : Conn T P} (state : c'.state = c.state) (fd : c'.fd = c.fd)
      (same : closing c'.history = closing c.history) (empty : c.fd ≠ -1 → c'.tx.rsize = 0) :
      Flushed c true c'
  | closed {c' : Conn T P} (unsent : c.tx.rsize ≠ 0) (held : c.fd ≠ -1)
      (state : c'.state = .closeTransport) (fd : c'.fd = c.fd)
      (first : c.state = .protocol → closing c'.history = (closing c.history).map fun _ => true)
      (second : closing c.history = some true → retreated c'.history = true)
      (cut : lately cuts c'.history = true) :
      Flushed c false c'
  | failed {c' : Conn T P} (unsent : c.tx.rsize ≠ 0) (held : c.fd ≠ -1)
      (state : c'.state = .error) (fd : c'.fd = -1)
      (lost : (closing c.history).isSome = true → overwritten c'.history = true) :
      Flushed c false c'
  | blocked {c' : Conn T P} (unsent : c.tx.rsize ≠ 0) (held : c.fd ≠ -1)
      (state : c'.state = c.state) (fd : c'.fd = c.fd)
      (wakes : Wakes c' c.state.polls (c'.tx.rsize ≠ 0)) (kept : T.Keeps → c'.tx.rsize ≠ 0)
      (first : closing c'.history = (closing c.history).map fun _ => true)
      (second : c.state = .closeTransport → closing c.history = some true →
        retreated c'.history = true) :
      Flushed c false c'

/-- A flush that goes on from a state the loop has reached ends as one from the
loop's start. -/
theorem Flushed.from_start {c₀ c c' : Conn T P} {b : Bool} (flushed : Flushed c b c')
    (state : c.state = c₀.state) (fd : c.fd = c₀.fd) (same : closing c.history = closing c₀.history)
    (unsent : c.tx.rsize ≠ 0 → c₀.tx.rsize ≠ 0) : Flushed c₀ b c' := by
  cases flushed with
  | done s f cl e => exact .done (s.trans state) (f.trans fd) (cl.trans same) (by rwa [← fd])
  | closed u h s f first second cut =>
      exact .closed (unsent u) (fd ▸ h) s (f.trans fd) (by rwa [← state, ← same])
        (by rwa [← same]) cut
  | failed u h s f lost => exact .failed (unsent u) (fd ▸ h) s f (by rwa [← same])
  | blocked u h s f wakes kept first second =>
      exact .blocked (unsent u) (fd ▸ h) (s.trans state) (f.trans fd) (by rwa [← state]) kept
        (by rwa [← same]) (by rwa [← state, ← same])

theorem blocked_of_arm {c c' : Conn T P} {status : Transport.Status} {e : T.Endpoint}
    {tx : Buffer TX_CAP} {w : ω} {r' w' : Bool} (unsent : c.tx.rsize ≠ 0) (held : c.fd ≠ -1)
    (stuck : progress status c.tx tx = false) (kept : T.Keeps → tx.rsize ≠ 0)
    (armed : c' = (c.didWrite status e tx w).subscribe N r' w')
    (reads : c.state.polls = true → r' = true) (writes : tx.rsize ≠ 0 → w' = true) :
    Flushed c false c' := by
  subst armed
  refine .blocked unsent held rfl rfl ?_ kept ?_ ?_
  · exact (wakes_subscribe _ r' w').mono reads fun h => writes (of_decide_eq_true h)
  · simp [Conn.subscribe, Conn.log, Conn.didWrite, closing, stuck]
  · intro state again
    simp [Conn.subscribe, Conn.log, Conn.didWrite, occurs, retreats, stuck, again, state]

theorem writeTurn_runs {c : Conn T P} (flowing : c.fd = -1 ∨ c.state.flows = true) :
    Runs (Move N O) (writeTurn N) c fun r c' =>
      Unheard c c' ∧
        match r with
        | some b => Flushed c b c'
        | none => c'.state = c.state ∧ c'.fd = c.fd ∧ closing c'.history = closing c.history ∧
            c.tx.rsize ≠ 0 := by
  refine runs_get_bind ?_
  by_cases idle : c.fd = -1 ∨ c.tx.rsize = 0
  · rw [if_pos idle]
    refine runs_pure ⟨.refl c, .done rfl rfl rfl ?_⟩
    intro held
    exact idle.resolve_left held
  rw [if_neg idle]
  obtain ⟨held, unsent⟩ := not_or.mp idle
  refine (endpointWrite_runs (flowing.resolve_left held) held unsent).bind ?_
  rintro status _ - ⟨e, tx, w, answered, rfl⟩
  refine runs_get_bind ?_
  have wrote := unheard_didWrite c status e tx w
  have flows : (c.didWrite status e tx w).state.flows = true := flowing.resolve_left held
  have notError : (c.didWrite status e tx w).state ≠ .error := by
    intro state
    rw [state] at flows
    cases flows
  cases status with
  | close =>
      rw [if_pos ⟨rfl, notError⟩]
      have cut : lately cuts (c.didWrite .close e tx w).history = true := rfl
      refine (enterCloseTransport_runs (.severed (State.connected_of_flows flows) cut)).bind ?_
      rintro - _ - rfl
      refine runs_pure ⟨wrote.assigned (by simp), .closed unsent held rfl rfl ?_ ?_ ?_⟩
      · intro state
        simp [Conn.assign, Conn.log, Conn.didWrite, closing, state, progress]
      · intro again
        simp [Conn.assign, Conn.log, Conn.didWrite, occurs, retreats, again, progress]
      · exact cut
  | error =>
      rw [if_neg (by simp), if_pos (by simp)]
      have cut : lately cuts (c.didWrite .error e tx w).history = true := rfl
      have step : Move N O (c.didWrite .error e tx w) ((c.didWrite .error e tx w).enterError N) :=
        .fail _ (State.connected_of_flows flows) fun _ => .inr cut
      refine runs_modify_bind step ?_
      refine runs_pure ⟨wrote.failed,
        .failed unsent held (Conn.enterError_state N _) (Conn.teardown_fd N _) ?_⟩
      intro some
      refine occurs_of_suffix step.suffix ?_
      simp [Conn.didWrite, Conn.log, occurs, overwrites, some]
  | wantRead | wantWrite =>
      rw [if_neg (by simp), if_pos (by simp)]
      refine (arm_runs (by simp)).bind ?_
      rintro - c' - ⟨r', w', armed, -, -, reads, writes⟩
      refine runs_pure ⟨by rw [armed]; exact wrote.subscribed r' w',
        blocked_of_arm unsent held (by simp [progress]) ?_ armed reads writes⟩
      intro keeps
      exact keeps _ _ _ _ _ _ _ answered (by simp) unsent
  | ok =>
      rw [if_neg (by simp), if_neg (by simp)]
      by_cases same : (c.didWrite .ok e tx w).tx.rsize = c.tx.rsize
      · rw [if_pos same]
        refine (arm_runs (.inr rfl)).bind ?_
        rintro - c' - ⟨r', w', armed, -, -, reads, writes⟩
        replace same : tx.rsize = c.tx.rsize := same
        refine runs_pure ⟨by rw [armed]; exact wrote.subscribed r' w',
          blocked_of_arm unsent held (by simp [progress, same]) ?_ armed reads writes⟩
        intro _
        rwa [same]
      · rw [if_neg same]
        replace same : tx.rsize ≠ c.tx.rsize := same
        refine runs_pure ⟨wrote, rfl, rfl, ?_, unsent⟩
        simp [Conn.didWrite, Conn.log, closing, progress, same]

theorem transportWrite_runs (fuel : Nat) (reArm : Bool) {c : Conn T P}
    (flowing : c.fd = -1 ∨ c.state.flows = true) :
    Runs (Move N O) (transportWrite N fuel reArm) c fun b c' =>
      Unheard c c' ∧ Flushed c b c' ∧
      (b = true → reArm = true → c'.fd ≠ -1 → c'.state.polls = true → Wakes c' true false) := by
  -- the loop keeps the state, and that an earlier turn had something to send
  refine (runs_iterate (Q := fun b c' => Unheard c c' ∧ Flushed c b c')
    (fun c' => Unheard c c' ∧ c'.state = c.state ∧ c'.fd = c.fd ∧
      closing c'.history = closing c.history ∧ (c'.tx.rsize ≠ 0 → c.tx.rsize ≠ 0))
    ?_ fuel c ⟨.refl c, rfl, rfl, rfl, id⟩).bind ?_
  · rintro c₁ ⟨unheard, state, fd, same, unsent⟩
    refine (writeTurn_runs (by rwa [state, fd])).weaken ?_
    rintro (_ | b) c₂ - ⟨unheard', post⟩
    · obtain ⟨state', fd', same', unsent'⟩ := post
      exact ⟨unheard.trans unheard', state'.trans state, fd'.trans fd, same'.trans same,
        fun _ => unsent unsent'⟩
    · exact ⟨unheard.trans unheard', post.from_start state fd same unsent⟩
  · rintro b c₁ - ⟨unheard, flushed⟩
    cases b with
    | false => exact runs_pure ⟨unheard, flushed, by simp⟩
    | true =>
        rw [if_pos rfl]
        refine runs_get_bind ?_
        obtain ⟨state, fd, same, empty⟩ := flushed
        by_cases rearm : (reArm : Prop) ∧ c₁.fd ≠ -1 ∧
            (c₁.state = .protocol ∨ c₁.state = .closeProtocol)
        · rw [if_pos rearm]
          refine runs_modify_bind (.subscribe c₁ true false)
            (runs_pure ⟨unheard.subscribed true false, .done state fd ?_ empty, ?_⟩)
          · simpa [Conn.subscribe, Conn.log, closing] using same
          · exact fun _ _ _ _ => wakes_subscribe c₁ true false
        · rw [if_neg rearm]
          refine runs_pure ⟨unheard, .done state fd same empty, ?_⟩
          intro _ on held polls
          exact absurd ⟨on, held, State.polls_iff.mp polls⟩ rearm

/-- A flush does not go back to the states in which the session is called. -/
theorem Flushed.still {c c' : Conn T P} {b : Bool} (flushed : Flushed c b c') {s : State}
    (polls : s.polls = true) (state : c'.state = s) : c.state = s := by
  cases flushed with
  | done same | blocked _ _ same => exact same.symm.trans state
  | closed _ _ other | failed _ _ other =>
      rw [← state, other] at polls
      cases polls

/-- A flush leaves a flowing connection flowing. -/
theorem Flushed.flowing {c c' : Conn T P} {b : Bool} (flushed : Flushed c b c')
    (unheard : Unheard c c') (start : c.state.flows = true ∨ c.state = .error ∧ c.fd = -1)
    (undone : Undone c)
    (rearmed : b = true → c'.fd ≠ -1 → c'.state.polls = true → Wakes c' true false) :
    Flowing c' := by
  have last : Undone c' := unheard.undone undone (flushed.still rfl)
  cases flushed with
  | done state fd _ empty =>
      refine ⟨by rwa [state, fd], fun held polls => (rearmed rfl held polls).mono id ?_, last⟩
      intro unsent
      exact absurd (empty (fd ▸ held)) (of_decide_eq_true unsent)
  | closed _ _ state =>
      exact ⟨.inl (by rw [state]; rfl), armed_of_not_polls (by rw [state]; rfl), last⟩
  | failed _ _ state fd =>
      exact ⟨.inr ⟨state, fd⟩, armed_of_not_polls (by rw [state]; rfl), last⟩
  | blocked _ held state fd wakes =>
      refine ⟨by rwa [state, fd], ?_, last⟩
      intro _ polls
      rw [state] at polls
      exact wakes.mono (fun _ => polls) id

theorem transportWrite_flowing (fuel : Nat) {c : Conn T P}
    (start : c.state.flows = true ∨ c.state = .error ∧ c.fd = -1) (undone : Undone c) :
    Runs (Move N O) (transportWrite N fuel) c fun _ c' =>
      Flowing c' ∧ Unheard c c' ∧ (c'.state.polls = true → c.state = c'.state) := by
  refine (transportWrite_runs fuel true (start.symm.imp And.right id)).weaken ?_
  rintro b c' - ⟨unheard, flushed, rearmed⟩
  exact ⟨flushed.flowing unheard start undone fun h => rearmed h rfl, unheard,
    fun polls => flushed.still polls rfl⟩

theorem transportWrite_open (fuel : Nat) {c : Conn T P}
    (start : c.state.flows = true ∨ c.state = .error ∧ c.fd = -1) (undone : Undone c)
    (attentive : Attentive c) :
    Runs (Move N O) (transportWrite N fuel) c fun _ c' => Open c' := by
  refine (transportWrite_flowing fuel start undone).weaken ?_
  rintro - c' - ⟨flowing, unheard, still⟩
  exact { flowing with attentive := unheard.attentive attentive still }

/-! ## Shutting the session down -/

/-- The session is asked to shut down, and has not said its last word. -/
def Parting (c : Conn T P) : Prop := c.state = .closeProtocol ∧ dismissed c.history = false

/-- `on_shutdown` has answered `ok`, and its output has been written. -/
theorem parting_write (fuel : Nat) {c : Conn T P} (parting : Parting c) (s : P.Session) (io : Io)
    (w : ω) :
    Runs (Move N O) (transportWrite N fuel) (c.handled .onShutdown .ok s io w) fun _ c' => Left c' := by
  have state : (c.handled .onShutdown .ok s io w).state = .closeProtocol := parting.1
  refine (transportWrite_flowing fuel (.inl (by rw [state]; rfl)) ?_).weaken ?_
  · intro _
    simpa [Conn.handled, Conn.log, dismissed] using parting.2
  · rintro - c' - ⟨flowing, unheard, still⟩
    refine { flowing with unfed := fun running => ?_, idle := fun _ => ?_ }
    · rw [still (by rw [running]; rfl), running] at state
      cases state
    · rw [unheard.same (owed_skips _)]
      simp [Conn.handled, Conn.log, owed]

/-- A turn of either loop over `on_shutdown`; only one that is stuck ends the loop where it is. -/
theorem partingTurn_runs {α : Type} (fuel : Nat) {f : Protocol.Handler P.Session ω} {c : Conn T P}
    (gone stuck : α) (declared : P.onShutdown = some f) (parting : Parting c) :
    Runs (Move N O) (partingTurn N fuel gone stuck f) c
      (Turn Parting fun a c' => Left c' ∧ (a = gone ∨ c'.state = .closeProtocol)) := by
  refine runs_get_bind ?_
  refine (sessionHandler_runs (.onShutdown declared parting.1 parting.2)).bind ?_
  rintro status _ - ⟨s, io, w, -, rfl⟩
  have state : (c.handled .onShutdown status s io w).state = .closeProtocol := parting.1
  cases status with
  | ok =>
      refine (parting_write fuel parting s io w).bind ?_
      rintro - c' - left
      refine runs_get_bind ?_
      by_cases moved : c'.state ≠ .closeProtocol
      · rw [if_pos moved]
        exact runs_pure ⟨left, .inl rfl⟩
      rw [if_neg moved]
      split
      · exact runs_pure ⟨left, .inr (not_not.mp moved)⟩
      · exact runs_pure ⟨not_not.mp moved, left.undone (not_not.mp moved)⟩
  | close =>
      exact runs_modify_bind (.drainProtocol _ (.inl (by rw [state]; rfl)) (by simp [state]))
        (runs_pure ⟨left_drainProtocol _, .inl rfl⟩)
  | error =>
      exact runs_modify_bind (.fail _ (by rw [state]; rfl) (by simp [state]))
        (runs_pure ⟨left_enterError _, .inl rfl⟩)

theorem shutdownTurn_runs (fuel : Nat) {f : Protocol.Handler P.Session ω} {c : Conn T P}
    (declared : P.onShutdown = some f) (parting : Parting c) :
    Runs (Move N O) (shutdownTurn N fuel f) c (Turn Parting fun _ c' => Left c') := by
  rw [shutdownTurn_eq]
  refine (partingTurn_runs fuel () () declared parting).weaken ?_
  intro _ c' _ turn
  exact turn.imp id fun _ => And.left

theorem enterCloseProtocol_runs (fuel : Nat) {c : Conn T P} (running : c.state = .protocol)
    (word : leaving c.history = true) (undone : dismissed c.history = false)
    (entered : P.onShutdown = none → c.history.head? = some (c.state, .enter .stop)) :
    Runs (Move N O) (enterCloseProtocol N fuel) c fun _ c' => Left c' := by
  unfold enterCloseProtocol
  rcases declared : P.onShutdown with _ | f
  · refine (enterCloseTransport_runs (.stopped (entered declared) (.inr ⟨running, declared⟩))).weaken ?_
    rintro - _ - rfl
    exact left_closeTransport c
  · refine runs_modify_bind (.closeProtocol c running word undone) ?_
    exact runs_iterate Parting (fun c' parting => shutdownTurn_runs fuel declared parting) fuel _
      ⟨rfl, undone⟩

/-- A second flush that still has something to write: the first one stopped short of the end. -/
theorem stopped_of_unsent {c c₁ c₂ : Conn T P} {b : Bool} (running : c.state = .protocol)
    (word : closing c.history = some false) (first : Flushed c b c₁) (second : Flushed c₁ false c₂) :
    closing c₁.history = some true ∧ (c₁.state = .protocol ∨ c₁.state = .closeTransport) := by
  cases first with
  | done _ fd _ empty =>
      cases second with
      | closed unsent held | failed unsent held | blocked unsent held =>
          exact absurd (empty (fd ▸ held)) unsent
  | closed _ _ state _ again _ => exact ⟨by rw [again running, word]; rfl, .inr state⟩
  | failed _ _ _ fd _ =>
      cases second with
      | closed _ held | failed _ held | blocked _ held => exact absurd fd held
  | blocked _ _ state _ _ _ again _ => exact ⟨by rw [again, word]; rfl, .inl (state.trans running)⟩

/-- Where the machine is when it drains after two flushes. -/
theorem flushed_twice {c c₁ c₂ : Conn T P} {b : Bool} (running : c.state = .protocol)
    (word : closing c.history = some false) (first : Flushed c b c₁) (second : Flushed c₁ false c₂) :
    c₂.state.polls = true ∨ (c₂.state = .error ∧ c₂.fd = -1) ∧ overwritten c₂.history = true ∨
      c₂.state = .closeTransport ∧ retreated c₂.history = true := by
  obtain ⟨again, state₁⟩ := stopped_of_unsent running word first second
  cases second with
  | closed _ _ state _ _ back => exact .inr (.inr ⟨state, back again⟩)
  | failed _ _ state fd lost => exact .inr (.inl ⟨⟨state, fd⟩, lost (by rw [again]; rfl)⟩)
  | blocked _ _ state _ _ _ _ back =>
      rcases state₁ with running₁ | closed₁
      · exact .inl (by rw [state, running₁]; rfl)
      · exact .inr (.inr ⟨state.trans closed₁, back closed₁ again⟩)

/-- The end of `bind_protocol` after a handler's `close`. -/
theorem closeBranch_runs (fuel : Nat) {c : Conn T P} (running : c.state = .protocol)
    (word : closing c.history = some false) (leaves : leaving c.history = true)
    (undone : dismissed c.history = false) :
    Runs (Move N O) (do
      let _ ← transportWrite N fuel
      if P.onShutdown.isSome then
        let c ← get
        if c.state = .protocol then enterCloseProtocol N fuel else enterCloseTransport
      else if ← transportWrite N fuel then enterCloseTransport
      else modify (Conn.assign .drainProtocol)) c fun _ c' => Left c' := by
  refine (transportWrite_runs fuel true (.inr (by rw [running]; rfl))).bind ?_
  rintro b₁ c₁ - ⟨unheard, first, -⟩
  by_cases declared : P.onShutdown.isSome = true
  · rw [if_pos declared]
    refine runs_get_bind ?_
    by_cases still : c₁.state = .protocol
    · rw [if_pos still]
      refine enterCloseProtocol_runs fuel still ?_ ?_ fun missing => ?_
      · rw [unheard.same leaving_skips, leaves]
      · rw [unheard.same dismissed_skips, undone]
      · rw [missing] at declared
        cases declared
    · rw [if_neg still]
      refine (enterCloseTransport_runs ?_).weaken fun _ c' _ h => h ▸ left_closeTransport c₁
      cases first with
      | done state _ _ _ | blocked _ _ state _ _ _ _ _ => exact absurd (state.trans running) still
      | closed _ _ state _ _ _ cut => exact .severed (by rw [state]; rfl) cut
      | failed _ _ state fd lost => exact .lost state fd (lost (by rw [word]; rfl))
  · rw [if_neg declared]
    refine (transportWrite_runs fuel true ?_).bind ?_
    · cases first with
      | done state _ _ _ | blocked _ _ state _ _ _ _ _ => exact .inr (by rw [state, running]; rfl)
      | closed _ _ state _ _ _ => exact .inr (by rw [state]; rfl)
      | failed _ _ _ fd _ => exact .inl fd
    · rintro b₂ c₂ path ⟨unheard₂, second, -⟩
      have leaves₂ : leaving c₂.history = true := by
        rw [(unheard.trans unheard₂).same leaving_skips, leaves]
      cases b₂ with
      | true =>
          rw [if_pos rfl]
          refine (enterCloseTransport_runs ?_).weaken fun _ c' _ h => h ▸ left_closeTransport c₂
          obtain ⟨state₂, fd₂, -, empty⟩ := second
          rw [← fd₂] at empty
          cases first with
          | done state _ _ _ | blocked _ _ state _ _ _ _ _ =>
              exact .flushed (by rw [state₂, state, running]; rfl) empty fun _ => leaves₂
          | closed _ _ state _ _ _ =>
              exact .flushed (by rw [state₂, state]; rfl) empty fun _ => leaves₂
          | failed _ _ state fd lost =>
              refine .lost (state₂.trans state) (fd₂.trans fd) ?_
              exact occurs_of_suffix (path_suffix path) (lost (by rw [word]; rfl))
      | false =>
          rw [if_neg (by simp)]
          exact runs_modify (.drainProtocol c₂ (flushed_twice running word first second)
            fun _ => leaves₂) (left_drainProtocol c₂)

/-! ## Feeding the session -/

/-- What a handler of the fed session leaves: the session goes on being fed only on the
answer `ok`, and then only its output has been written since. -/
structure Bound (kind : Protocol.HandlerKind) (c c' : Conn T P) : Prop extends Flowing c' where
  answer : c'.state = .protocol → ∃ s io w, Unheard (c.handled kind .ok s io w) c'
  gone : c'.state ≠ .protocol → Left c'

theorem Left.bound {kind : Protocol.HandlerKind} {c c' : Conn T P} (left : Left c') :
    Bound kind c c' :=
  { left with answer := fun running => absurd running left.unfed, gone := fun _ => left }

theorem bindProtocol_runs (fuel : Nat) {kind : Protocol.HandlerKind}
    {f : Protocol.Handler P.Session ω} {c : Conn T P} (running : c.state = .protocol)
    (staying : leaving c.history = false) (handles : Handles c kind f) :
    Runs (Move N O) (bindProtocol N fuel kind f) c fun _ c' => Bound kind c c' := by
  refine (sessionHandler_runs handles).bind ?_
  rintro status _ - ⟨s, io, w, -, rfl⟩
  have state : (c.handled kind status s io w).state = .protocol := running
  cases status with
  | ok =>
      have undone : Undone (c.handled kind .ok s io w) := by
        intro closing
        rw [state] at closing
        cases closing
      refine (transportWrite_flowing fuel (.inl (by rw [state]; rfl)) undone).bind ?_
      rintro - c' - ⟨flowing, unheard, still⟩
      refine runs_pure
        { flowing with answer := fun _ => ⟨s, io, w, unheard⟩, gone := fun moved => ?_ }
      refine left_of_not_polls flowing.flows (Bool.eq_false_iff.mpr fun polls => ?_)
      exact moved ((still polls).symm.trans state)
  | close =>
      refine (closeBranch_runs fuel state ?_ ?_ ?_).weaken fun _ _ _ left => left.bound
      · cases handles with
        | onConnect | onData => simp [Conn.handled, Conn.log, closing]
        | onShutdown _ closing =>
            rw [running] at closing
            cases closing
      · simp [Conn.handled, Conn.log, leaving]
      · cases handles with
        | onConnect | onData => simpa [Conn.handled, Conn.log, dismissed] using dismissed_of_leaving staying
        | onShutdown _ closing =>
            rw [running] at closing
            cases closing
  | error =>
      refine runs_modify (.fail _ (by rw [state]; rfl) fun _ => .inl ?_) (left_enterError _).bound
      simp [Conn.handled, Conn.log, leaving]

theorem greet_runs (fuel : Nat) {c : Conn T P} {s : State} (running : c.state = .protocol)
    (first : c.history.head? = some (s, .assign .protocol)) (staying : leaving c.history = false) :
    Runs (Move N O) (greet N fuel) c fun _ c' => Open c' := by
  unfold greet
  rcases declared : P.onConnect with _ | f
  · refine (transportWrite_open fuel (.inl (by rw [running]; rfl)) ?_ ?_).bind ?_
    · intro closing
      rw [running] at closing
      cases closing
    · refine ⟨fun _ => staying, fun _ => ?_⟩
      rcases history : c.history with _ | ⟨entry, h⟩
      · rfl
      · rw [history] at first
        cases first
        simp [owed, declared]
    · exact fun _ _ _ opened => runs_pure opened
  · refine (bindProtocol_runs fuel running staying (.onConnect declared running first)).weaken ?_
    rintro - c' - bound
    by_cases running' : c'.state = .protocol
    · obtain ⟨s, io, w, unheard⟩ := bound.answer running'
      refine { bound with attentive := ⟨fun _ => ?_, fun _ => ?_⟩ }
      · rw [unheard.same leaving_skips]
        simp [Conn.handled, Conn.log, leaving, staying]
      · rw [unheard.same (owed_skips _)]
        simp [Conn.handled, Conn.log, owed]
    · exact (bound.gone running').open

/-- In state `s` bytes have been read: a fed session is due to see them. -/
structure Fed (s : State) (c : Conn T P) : Prop where
  state : c.state = s
  armed : Armed c
  undone : Undone c
  due : s = .protocol → leaving c.history = false ∧
    owed P.onConnect.isSome c.history = decide (c.rx.rsize ≠ 0)

theorem consumeTurn_runs (fuel : Nat) {c : Conn T P} (fed : Fed .protocol c) :
    Runs (Move N O) (consumeTurn N fuel) c (Turn (Fed .protocol) fun _ c' => Open c') := by
  obtain ⟨running, armed, undone, due⟩ := fed
  obtain ⟨staying, owes⟩ := due rfl
  refine runs_get_bind ?_
  dsimp only
  split
  · rename_i read
    refine runs_pure
      { flows := .inl (by rw [running]; rfl), armed, undone
        attentive := ⟨fun _ => staying, fun _ => ?_⟩ }
    simpa [read] using owes
  rename_i unread
  have handles : Handles c .onData P.onData :=
    .onData running unread staying (owes.trans (decide_eq_true unread))
  refine (bindProtocol_runs fuel running staying handles).bind ?_
  rintro - c' - bound
  refine runs_get_bind ?_
  by_cases moved : c'.state ≠ .protocol
  · rw [if_pos moved]
    exact runs_pure (bound.gone moved).open
  rw [if_neg moved]
  obtain ⟨s, io, w, unheard⟩ := bound.answer (not_not.mp moved)
  have stays : leaving c'.history = false := by
    rw [unheard.same leaving_skips]
    simpa [Conn.handled, Conn.log, leaving] using staying
  have next : owed P.onConnect.isSome c'.history =
      (decide (c'.rx.rsize < c.rx.rsize) && decide (c'.rx.rsize ≠ 0)) := by
    rw [unheard.same (owed_skips _), unheard.rx]
    exact congrArg (· && decide (io.rx.rsize ≠ 0)) (Bool.true_and _)
  split
  · rename_i stuck
    refine runs_pure { bound with attentive := ⟨fun _ => stays, fun _ => ?_⟩ }
    rw [next, decide_eq_false (by omega), Bool.false_and]
  · rename_i progress
    refine runs_pure
      { state := not_not.mp moved, armed := bound.armed, undone := bound.undone
        due := fun _ => ⟨stays, ?_⟩ }
    rw [next, decide_eq_true (by omega), Bool.true_and]

/-- What an argument `consume` of `transport_read` must do in state `s`. -/
def Consumes (N : Backend ω) (s : State) (consume : Method T P Bool) : Prop :=
  ∀ (O : Prop) (c : Conn T P), Fed s c →
    Runs (Move N O) consume c fun more c' => Open c' ∧ (more = true → c'.state = s)

theorem consumeProtocol_runs (fuel : Nat) :
    Consumes N .protocol (consumeProtocol N fuel : Method T P Bool) := by
  intro O c fed
  refine (runs_iterate (Q := fun _ c' => Open c') (Fed .protocol)
    (fun c' fed => consumeTurn_runs fuel fed) fuel c fed).bind ?_
  rintro - c' - opened
  refine runs_get_bind (runs_pure ⟨opened, ?_⟩)
  simp

theorem closeTurn_runs (fuel : Nat) {f : Protocol.Handler P.Session ω} {c : Conn T P}
    (declared : P.onShutdown = some f) (parting : Parting c) :
    Runs (Move N O) (closeTurn N fuel f) c
      (Turn Parting fun more c' => Open c' ∧ (more = true → c'.state = .closeProtocol)) := by
  rw [closeTurn_eq]
  refine (partingTurn_runs fuel false true declared parting).weaken ?_
  intro _ c' _ turn
  refine turn.imp id ?_
  rintro more ⟨left, gone | stuck⟩
  · exact ⟨left.open, by simp [gone]⟩
  · exact ⟨left.open, fun _ => stuck⟩

theorem consumeClose_runs (fuel : Nat) :
    Consumes N .closeProtocol (consumeClose N fuel : Method T P Bool) := by
  intro O c fed
  unfold consumeClose
  rcases declared : P.onShutdown with _ | f
  · exact runs_modify_bind (.drainProtocol c (.inl (by rw [fed.state]; rfl)) (by simp [fed.state]))
      (runs_pure ⟨(left_drainProtocol c).open, by simp⟩)
  · exact runs_iterate Parting (fun c' parting => closeTurn_runs fuel declared parting) fuel c
      ⟨fed.state, fed.undone fed.state⟩

/-! ## Reading -/

theorem Open.fed {s : State} {c : Conn T P} (opened : Open c) (state : c.state = s)
    (status : Transport.Status) (e : T.Endpoint) (rx : Buffer RX_CAP) (w : ω)
    (changed : rx.rsize ≠ c.rx.rsize) : Fed s (c.didRead status e rx w) where
  state := state
  armed := opened.armed
  undone := opened.undone
  due running := by
    refine ⟨opened.attentive.staying (state.trans running), ?_⟩
    exact if_neg changed

theorem Open.read {c : Conn T P} (opened : Open c) (status : Transport.Status) (e : T.Endpoint)
    (rx : Buffer RX_CAP) (w : ω) (same : rx.rsize = c.rx.rsize) :
    Open (c.didRead status e rx w) where
  flows := opened.flows
  armed := opened.armed
  undone := opened.undone
  attentive := by
    refine ⟨opened.attentive.staying, fun polls => ?_⟩
    simpa [Conn.didRead, Conn.log, owed, same] using opened.attentive.idle polls

theorem Open.subscribed {c : Conn T P} (opened : Open c) {r w : Bool}
    (reads : c.state.polls = true → r = true) (writes : c.tx.rsize ≠ 0 → w = true) :
    Open (c.subscribe N r w) where
  flows := opened.flows
  armed _ polls := (wakes_subscribe c r w).mono (fun _ => reads polls)
    fun unsent => writes (of_decide_eq_true unsent)
  undone := opened.undone
  attentive := ⟨opened.attentive.staying, opened.attentive.idle⟩

theorem readTurn_runs {s : State} {consume : Method T P Bool} (polls : s.polls = true)
    (consumes : Consumes N s consume) {c : Conn T P} (state : c.state = s) (opened : Open c) :
    Runs (Move N O) (readTurn N consume enterCloseTransport) c
      (Turn (fun c' => c'.state = s ∧ Open c') fun _ c' => Open c') := by
  have reading : c.state.reads = true := by
    rw [state]; revert polls; cases s <;> simp [State.polls, State.reads]
  refine runs_get_bind ?_
  by_cases full : c.rx.full = true
  · rw [if_pos full]
    exact Runs.after (q := pure (some ())) rfl (.single (.overflow c reading full opened.attentive))
      (runs_pure (left_enterError (c.log (.overflow c.rx))).open)
  rw [if_neg full]
  refine (endpointRead_runs reading (by simpa using full) opened.attentive).bind ?_
  rintro status _ - ⟨e, rx, w, -, rfl⟩
  refine runs_get_bind ?_
  have read : ∀ O, Runs (Move N O) (if (c.didRead status e rx w).rx.rsize ≠ c.rx.rsize then consume
      else pure true) (c.didRead status e rx w)
      fun more c' => Open c' ∧ (more = true → c'.state = s) := by
    intro O
    split
    · rename_i changed
      exact consumes O _ (opened.fed state status e rx w changed)
    · rename_i same
      exact runs_pure ⟨opened.read status e rx w (not_not.mp same), fun _ => state⟩
  -- without a call from outside, so that the answer is still of this epoch
  refine ((read O).along (read False).1).bind ?_
  rintro more c' - ⟨⟨opened', still⟩, within⟩
  cases more with
  | false => exact runs_pure opened'
  | true =>
      rw [if_pos rfl]
      have state' : c'.state = s := still rfl
      have connected : c'.state.connected = true := by
        rw [state']; revert polls; cases s <;> simp [State.polls, State.connected]
      cases status with
      | ok => exact runs_pure ⟨state', opened'⟩
      | close =>
          have cut : lately cuts c'.history = true := path_lately within rfl
          refine (enterCloseTransport_runs (.severed connected cut)).bind ?_
          rintro - _ - rfl
          exact runs_pure (left_closeTransport c').open
      | wantRead | wantWrite =>
          refine (arm_runs (by simp)).bind ?_
          rintro - _ - ⟨r, w, rfl, -, -, reads, writes⟩
          exact runs_pure (opened'.subscribed reads writes)
      | error =>
          have cut : lately cuts c'.history = true := path_lately within rfl
          exact runs_modify_bind (.fail c' connected fun _ => .inr cut)
            (runs_pure (left_enterError c').open)

/-- `step_Protocol` and `step_close_protocol`: read, then write. -/
theorem readWrite_runs (fuel : Nat) {s : State} {consume : Method T P Bool}
    (polls : s.polls = true) (consumes : Consumes N s consume) (ev : Event) {c : Conn T P}
    (state : c.state = s) (opened : Open c) :
    Runs (Move N O) (do
      (if ev.readable then transportRead N fuel consume enterCloseTransport
        else pure () : Method T P Unit)
      if ev.writeable then let _ ← transportWrite N fuel) c fun _ c' => Open c' := by
  have read : Runs (Move N O) (if ev.readable then transportRead N fuel consume enterCloseTransport
      else pure ()) c fun _ c' => Open c' := by
    split
    · exact runs_iterate (fun c' => c'.state = s ∧ Open c')
        (fun c' inv => readTurn_runs polls consumes inv.1 inv.2) fuel c ⟨state, opened⟩
    · exact runs_pure opened
  refine read.bind ?_
  rintro - c' - opened'
  split
  · refine (transportWrite_open fuel opened'.flows opened'.undone opened'.attentive).bind ?_
    exact fun _ _ _ opened'' => runs_pure opened''
  · exact runs_pure opened'

/-- What draining leaves behind: the state is still `drain_protocol`, or an error that
will be overwritten. -/
def Drained (c : Conn T P) : Prop :=
  c.state = .drainProtocol ∨ c.state = .error ∧ c.fd = -1 ∧ overwritten c.history = true

theorem Drained.unfed {c : Conn T P} (drained : Drained c) : c.state.polls = false := by
  rcases drained with state | ⟨state, -⟩ <;> rw [state] <;> rfl

theorem drainTurn_runs {c : Conn T P} (draining : c.state = .drainProtocol) :
    Runs (Move N O) (readTurn N (pure true) (pure ())) c
      (Turn (·.state = .drainProtocol) fun _ c' => Drained c') := by
  have reading : c.state.reads = true := by rw [draining]; rfl
  have unfed : Attentive c := attentive_of_not_polls (by rw [draining]; rfl)
  refine runs_get_bind ?_
  by_cases full : c.rx.full = true
  · rw [if_pos full]
    have step : Move N O c ((c.log (.overflow c.rx)).enterError N) := .overflow c reading full unfed
    refine Runs.after (q := pure (some ())) rfl (.single step) (runs_pure (.inr ⟨?_, ?_, ?_⟩))
    · exact Conn.enterError_state N _
    · exact Conn.teardown_fd N _
    · refine occurs_of_suffix (Conn.teardown_suffix N _) ?_
      simp [Conn.assign, Conn.log, occurs, overwrites, draining]
  rw [if_neg full]
  refine (endpointRead_runs reading (by simpa using full) unfed).bind ?_
  rintro status _ - ⟨e, rx, w, -, rfl⟩
  refine runs_get_bind ?_
  refine Runs.bind (Q := fun more c' => more = true ∧ c' = c.didRead status e rx w)
    (by split <;> exact runs_pure ⟨rfl, rfl⟩) ?_
  rintro _ _ - ⟨rfl, rfl⟩
  rw [if_pos rfl]
  cases status with
  | ok => exact runs_pure draining
  | close => exact runs_pure (.inl draining)
  | wantRead | wantWrite =>
      refine (arm_runs (by simp)).bind ?_
      rintro - _ - ⟨r', w', rfl, -⟩
      exact runs_pure (.inl draining)
  | error =>
      have state : (c.didRead .error e rx w).state = .drainProtocol := draining
      refine runs_modify_bind (.fail _ (by rw [state]; rfl) (by simp [state])) ?_
      refine runs_pure (.inr ⟨Conn.enterError_state N _, Conn.teardown_fd N _, ?_⟩)
      refine occurs_of_suffix (Conn.teardown_suffix N _) ?_
      simp [Conn.assign, Conn.log, Conn.didRead, occurs, overwrites, draining]

end Manet.Reactor
