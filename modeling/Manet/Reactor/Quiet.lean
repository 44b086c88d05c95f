/-
# Manet.Reactor.Quiet — what the methods record, and when they read

`Quiet` is a relation between a connection and a later one: the history has grown, and unless the
endpoint is being read from, no read is in what was added.  Every method goes along it (`Walks`),
wherever it is started and whether or not it returns, so the lemmas here have no hypotheses on
the connection; `steps` reads only for an event that is readable.
-/
import Manet.Reactor.History
import Manet.Reactor.Turns

namespace Manet.Reactor

open Manet.Flow Manet.Net Relation

set_option autoImplicit false

variable {ω : Type} {N : Backend ω} {T : Transport.Layer ω} {P : Protocol.Layer ω}

/-! ## Reading the history -/

/-- A call of `Endpoint::read`. -/
def Act.isRead : Act → Bool
  | .read _ _ _ => true
  | .noReturn (.read _) => true
  | _ => false

/-- How often the endpoint has been read from. -/
def reads (h : History) : Nat := h.countP fun entry => entry.2.isRead

/-- The last read of the current call wants to write, and the state has not changed since. -/
def asksWrite : History → Bool
  | [] => false
  | (_, .read status _ _) :: _ => status = .wantWrite
  | (_, .enter _) :: _ => false
  | (_, .assign _) :: _ => false
  | _ :: h => asksWrite h

theorem asksWrite_older {s : State} {act : Act} {h : History} (other : act.isRead = false)
    (asks : asksWrite ((s, act) :: h) = true) :
    asksWrite h = true ∧ ∀ s', act ≠ .assign s' := by
  cases act with
  | read | enter | assign => simp_all [asksWrite, Act.isRead]
  | _ => exact ⟨asks, by simp⟩

/-! ## What happens between two reads -/

/-- The history grows from `c` to `c'`; and unless it is `reading`, no read is recorded, and one
that wants to write is the last of its state only if it was. -/
structure Quiet (reading : Bool) (c c' : Conn T P) : Prop where
  grown : c.history <:+ c'.history
  unread : reading = false → reads c'.history = reads c.history
  asks : reading = false → asksWrite c'.history = true →
    asksWrite c.history = true ∧ c'.state = c.state

section Quiet

variable {r : Bool}

theorem Quiet.refl (c : Conn T P) : Quiet r c c :=
  ⟨List.suffix_rfl, fun _ => rfl, fun _ asks => ⟨asks, rfl⟩⟩

theorem Quiet.trans {c c₁ c₂ : Conn T P} (first : Quiet r c c₁) (second : Quiet r c₁ c₂) :
    Quiet r c c₂ where
  grown := first.grown.trans second.grown
  unread off := (second.unread off).trans (first.unread off)
  asks off asks := by
    obtain ⟨asks₁, state₁⟩ := second.asks off asks
    obtain ⟨asks₀, state₀⟩ := first.asks off asks₁
    exact ⟨asks₀, state₁.trans state₀⟩

theorem quiet_path {c c' : Conn T P} (path : ReflTransGen (Quiet r) c c') : Quiet r c c' :=
  path_invariant (fun _ _ step before => before.trans step) path (.refl c)

/-- One act that is not a read. -/
theorem quiet_act {c c' : Conn T P} {s : State} {act : Act}
    (recorded : c'.history = (s, act) :: c.history) (other : act.isRead = false)
    (still : (∃ s', act = .assign s') ∨ c'.state = c.state) : Quiet r c c' where
  grown := recorded ▸ List.suffix_cons _ _
  unread _ := by
    rw [recorded]
    exact List.countP_cons_of_neg (by simp [other])
  asks _ asks := by
    rw [recorded] at asks
    obtain ⟨asks', unassigned⟩ := asksWrite_older other asks
    rcases still with ⟨s', assigned⟩ | same
    · exact absurd assigned (unassigned s')
    · exact ⟨asks', same⟩

/-- The acts that leave the state alone. -/
theorem quiet_log {c c' : Conn T P} {act : Act} (recorded : c'.history = (c.state, act) :: c.history)
    (other : act.isRead = false) (same : c'.state = c.state) : Quiet r c c' :=
  quiet_act recorded other (.inr same)

theorem quiet_assign (s : State) (c : Conn T P) : Quiet r c (c.assign s) :=
  quiet_act rfl rfl (.inl ⟨s, rfl⟩)

theorem quiet_sessionTeardown (c : Conn T P) : Quiet r c c.sessionTeardown := by
  unfold Conn.sessionTeardown
  split
  · exact .refl c
  · exact quiet_log rfl rfl rfl

theorem quiet_release (c : Conn T P) : Quiet r c (c.release N) := by
  have cleared : Quiet r c (c.log (.net (.clear c.fd))) := quiet_log rfl rfl rfl
  exact cleared.trans (quiet_log rfl rfl rfl)

theorem quiet_teardown (c : Conn T P) : Quiet r c (c.teardown N) := by
  unfold Conn.teardown
  split
  · have destroyed : Quiet r c.sessionTeardown c.sessionTeardown.endpointDestroy :=
      quiet_log rfl rfl rfl
    exact ((quiet_sessionTeardown c).trans destroyed).trans (quiet_release _)
  · exact .refl c

theorem quiet_enterError (c : Conn T P) : Quiet r c (c.enterError N) :=
  (quiet_assign .error c).trans (quiet_teardown _)

theorem quiet_enterClosed (c : Conn T P) : Quiet r c (c.enterClosed N) :=
  (quiet_assign .closed c).trans (quiet_teardown _)

theorem quiet_initFailed (c : Conn T P) (w : ω) : Quiet r c (c.initFailed N w) := by
  have refused : Quiet r c (c.notInitialised w) := quiet_log rfl rfl rfl
  have failed := refused.trans (quiet_assign .error _)
  unfold Conn.initFailed
  dsimp only
  split
  · exact (failed.trans (quiet_sessionTeardown _)).trans (quiet_release _)
  · exact failed

/-! Method by method. -/

theorem noReturn_quiet {α : Type} {callee : Callee} (other : (Act.noReturn callee).isRead = false) :
    Walks (Quiet r) (noReturn callee : Method T P α) := by
  unfold noReturn
  exact Walks.bind (walks_modify fun _ => quiet_log rfl other rfl) fun _ => walks_failure

/-- What an answered call leaves is recorded, and its answer returned. -/
theorem answer_quiet {α : Type} {f : Conn T P → Conn T P} (quiet : ∀ c, Quiet r c (f c)) (a : α) :
    Walks (Quiet r) (do modify f; return a : Method T P α) :=
  (walks_modify quiet).bind fun _ => walks_pure a

theorem endpointHandshakeStep_quiet (f : T.Endpoint → ω → Option (Transport.Status × T.Endpoint × ω)) :
    Walks (Quiet r) (endpointHandshakeStep f : Method T P _) := by
  refine walks_get.bind fun c => ?_
  split
  · exact noReturn_quiet rfl
  · refine answer_quiet (fun c => ?_) _
    exact quiet_log rfl rfl rfl

theorem endpointShutdownStep_quiet (f : T.Endpoint → ω → Option (Transport.Status × T.Endpoint × ω)) :
    Walks (Quiet r) (endpointShutdownStep f : Method T P _) := by
  refine walks_get.bind fun c => ?_
  split
  · exact noReturn_quiet rfl
  · refine answer_quiet (fun c => ?_) _
    exact quiet_log rfl rfl rfl

theorem endpointWrite_quiet : Walks (Quiet r) (endpointWrite : Method T P _) := by
  refine walks_get.bind fun c => ?_
  split
  · exact noReturn_quiet rfl
  · refine answer_quiet (fun c => ?_) _
    exact quiet_log rfl rfl rfl

theorem sessionHandler_quiet (kind : Protocol.HandlerKind) (f : Protocol.Handler P.Session ω) :
    Walks (Quiet r) (sessionHandler kind f : Method T P _) := by
  refine walks_get.bind fun c => ?_
  split
  · exact noReturn_quiet rfl
  · refine answer_quiet (fun c => ?_) _
    exact quiet_log rfl rfl rfl

theorem assign_quiet (s : State) : Walks (Quiet r) (modify (Conn.assign s) : Method T P Unit) :=
  walks_modify (quiet_assign s)

theorem error_quiet : Walks (Quiet r) (modify (Conn.enterError N) : Method T P Unit) :=
  walks_modify quiet_enterError

theorem subscribe_quiet (want : Conn T P → Bool × Bool) :
    Walks (Quiet r)
      (modify fun c => c.subscribe N (want c).1 (want c).2 : Method T P Unit) :=
  walks_modify fun _ => quiet_log rfl rfl rfl

theorem arm_quiet (status : Transport.Status) : Walks (Quiet r) (arm N status : Method T P Unit) := by
  cases status with
  | ok | close => exact walks_pure _
  | wantRead => exact subscribe_quiet fun c => (true, c.tx.rsize ≠ 0)
  | wantWrite => exact subscribe_quiet fun c => (c.state = .protocol ∨ c.state = .closeProtocol, true)
  | error => exact error_quiet

theorem writeTurn_quiet : Walks (Quiet r) (writeTurn N : Method T P _) := by
  refine walks_get.bind fun c => ?_
  split
  · exact walks_pure _
  refine endpointWrite_quiet.bind fun status => walks_get.bind fun c => ?_
  split
  · exact (assign_quiet _).bind fun _ => walks_pure _
  split
  · exact (arm_quiet _).bind fun _ => walks_pure _
  split
  · exact (arm_quiet _).bind fun _ => walks_pure _
  · exact walks_pure _

theorem transportWrite_quiet (fuel : Nat) (reArm : Bool) :
    Walks (Quiet r) (transportWrite N fuel reArm : Method T P Bool) := by
  refine (walks_iterate writeTurn_quiet fuel).bind fun flushed => ?_
  split
  · refine walks_get.bind fun c => ?_
    split
    · exact (subscribe_quiet fun _ => (true, false)).bind fun _ => walks_pure _
    · exact walks_pure _
  · exact walks_pure _

theorem partingTurn_quiet {α : Type} (fuel : Nat) (gone stuck : α)
    (f : Protocol.Handler P.Session ω) :
    Walks (Quiet r) (partingTurn N fuel gone stuck f : Method T P _) := by
  refine walks_get.bind fun c => (sessionHandler_quiet _ f).bind fun status => ?_
  cases status with
  | ok =>
      refine (transportWrite_quiet fuel true).bind fun _ => walks_get.bind fun c => ?_
      split
      · exact walks_pure _
      split <;> exact walks_pure _
  | close => exact (assign_quiet _).bind fun _ => walks_pure _
  | error => exact error_quiet.bind fun _ => walks_pure _

theorem enterCloseProtocol_quiet (fuel : Nat) :
    Walks (Quiet r) (enterCloseProtocol N fuel : Method T P Unit) := by
  unfold enterCloseProtocol
  split
  · refine (assign_quiet _).bind fun _ => walks_iterate ?_ fuel
    rw [shutdownTurn_eq]
    exact partingTurn_quiet fuel () () _
  · exact assign_quiet _

theorem bindProtocol_quiet (fuel : Nat) (kind : Protocol.HandlerKind)
    (f : Protocol.Handler P.Session ω) :
    Walks (Quiet r) (bindProtocol N fuel kind f : Method T P Unit) := by
  refine (sessionHandler_quiet kind f).bind fun status => ?_
  cases status with
  | ok => exact (transportWrite_quiet fuel true).bind fun _ => walks_pure _
  | close =>
      refine (transportWrite_quiet fuel true).bind fun _ => ?_
      split
      · refine walks_get.bind fun c => ?_
        split
        · exact enterCloseProtocol_quiet fuel
        · exact assign_quiet _
      · refine (transportWrite_quiet fuel true).bind fun flushed => ?_
        split <;> exact assign_quiet _
  | error => exact error_quiet

theorem enterProtocol_quiet (fuel : Nat) :
    Walks (Quiet r) (enterProtocol N fuel : Method T P Unit) := by
  refine (assign_quiet _).bind fun _ => ?_
  unfold greet
  split
  · exact bindProtocol_quiet fuel _ _
  · exact (transportWrite_quiet fuel true).bind fun _ => walks_pure _

theorem enterConnected_quiet (fuel : Nat) :
    Walks (Quiet r) (enterConnected N fuel : Method T P Unit) := by
  refine walks_get.bind fun c => ?_
  split
  · exact walks_modify fun c => quiet_initFailed c _
  refine Walks.bind (walks_modify fun _ => quiet_log rfl rfl rfl) fun _ => ?_
  split
  · exact assign_quiet _
  · exact (subscribe_quiet fun _ => (true, false)).bind fun _ => enterProtocol_quiet fuel

theorem stepInProgress_quiet (fuel : Nat) (ev : Event) :
    Walks (Quiet r) (stepInProgress N fuel ev : Method T P Unit) := by
  unfold stepInProgress
  split
  · refine walks_get.bind fun c => ?_
    split
    refine Walks.bind (walks_modify fun _ => quiet_log rfl rfl rfl) fun _ => ?_
    split
    · exact error_quiet
    split
    · exact error_quiet
    · exact enterConnected_quiet fuel
  split
  · exact error_quiet
  · exact walks_pure _

theorem stepTransport_quiet (fuel : Nat) :
    Walks (Quiet r) (stepTransport N fuel : Method T P Unit) := by
  unfold stepTransport
  split
  · exact walks_pure _
  refine (endpointHandshakeStep_quiet _).bind fun status => ?_
  split
  · exact enterProtocol_quiet fuel
  split
  · exact error_quiet
  · exact arm_quiet _

theorem consumeProtocol_quiet (fuel : Nat) :
    Walks (Quiet r) (consumeProtocol N fuel : Method T P Bool) := by
  have turn : Walks (Quiet r) (consumeTurn N fuel : Method T P _) := by
    unfold consumeTurn
    refine walks_get.bind fun c => ?_
    dsimp only
    split
    · exact walks_pure _
    refine (bindProtocol_quiet fuel _ _).bind fun _ => walks_get.bind fun c => ?_
    split
    · exact walks_pure _
    split <;> exact walks_pure _
  exact (walks_iterate turn fuel).bind fun _ => walks_get.bind fun c => walks_pure _

theorem consumeClose_quiet (fuel : Nat) :
    Walks (Quiet r) (consumeClose N fuel : Method T P Bool) := by
  unfold consumeClose
  split
  · rw [closeTurn_eq]
    exact walks_iterate (partingTurn_quiet fuel false true _) fuel
  · exact (assign_quiet _).bind fun _ => walks_pure _

/-! A read is only recorded. -/

theorem endpointRead_quiet : Walks (Quiet true) (endpointRead : Method T P _) := by
  have recorded : ∀ {c c' : Conn T P} {act : Act}, c'.history = (c.state, act) :: c.history →
      Quiet true c c' := by
    intro c c' act history
    exact ⟨history ▸ List.suffix_cons _ _, by simp, by simp⟩
  refine walks_get.bind fun c => ?_
  split
  · unfold noReturn
    exact Walks.bind (walks_modify fun _ => recorded rfl) fun _ => walks_failure
  · refine answer_quiet (fun c => ?_) _
    exact recorded rfl

theorem afterRead_quiet {consume : Method T P Bool} {onClose : Method T P Unit}
    (consumes : Walks (Quiet r) consume) (closes : Walks (Quiet r) onClose) (before : Nat)
    (status : Transport.Status) : Walks (Quiet r) (afterRead N consume onClose before status) := by
  refine walks_get.bind fun c => Walks.bind ?_ fun more => ?_
  · split
    · exact consumes
    · exact walks_pure _
  split
  · cases status with
    | ok => exact walks_pure _
    | close => exact closes.bind fun _ => walks_pure _
    | wantRead | wantWrite => exact (arm_quiet _).bind fun _ => walks_pure _
    | error => exact error_quiet.bind fun _ => walks_pure _
  · exact walks_pure _

theorem readTurn_quiet {consume : Method T P Bool} {onClose : Method T P Unit}
    (consumes : Walks (Quiet true) consume) (closes : Walks (Quiet true) onClose) :
    Walks (Quiet true) (readTurn N consume onClose) := by
  intro c
  cases full : c.rx.full with
  | true =>
      have overflowed : Quiet true c (c.log (.overflow c.rx)) := quiet_log rfl rfl rfl
      exact .of_exec (readTurn_full full) (.single (overflowed.trans (quiet_enterError _))) trivial
  | false =>
      have walks := endpointRead_quiet.bind
        (afterRead_quiet (N := N) consumes closes c.rx.rsize)
      exact Runs.after (readTurn_room full) .refl (walks c)

/-- The read half of a step, if there is one. -/
theorem readHalf_quiet {fuel : Nat} {consume : Method T P Bool} {onClose : Method T P Unit}
    {readable : Bool} (reading : readable = true → r = true) (consumes : Walks (Quiet true) consume)
    (closes : Walks (Quiet true) onClose) :
    Walks (Quiet r) (if readable then transportRead N fuel consume onClose else pure () :
      Method T P Unit) := by
  split
  · rename_i on
    rw [reading on]
    exact walks_iterate (readTurn_quiet consumes closes) fuel
  · exact walks_pure _

theorem writeHalf_quiet (fuel : Nat) (ev : Event) :
    Walks (Quiet r) (do if ev.writeable then let _ ← transportWrite N fuel : Method T P Unit) := by
  split
  · exact (transportWrite_quiet fuel true).bind fun _ => walks_pure _
  · exact walks_pure _

theorem stepProtocol_quiet (fuel : Nat) {ev : Event} (reading : ev.readable = true → r = true) :
    Walks (Quiet r) (stepProtocol N fuel ev : Method T P Unit) :=
  (readHalf_quiet reading (consumeProtocol_quiet fuel) (assign_quiet _)).bind fun _ =>
    writeHalf_quiet fuel ev

theorem stepCloseProtocol_quiet (fuel : Nat) {ev : Event} (reading : ev.readable = true → r = true) :
    Walks (Quiet r) (stepCloseProtocol N fuel ev : Method T P Unit) :=
  (readHalf_quiet reading (consumeClose_quiet fuel) (assign_quiet _)).bind fun _ =>
    writeHalf_quiet fuel ev

theorem stepDrainProtocol_quiet (fuel : Nat) {ev : Option Event}
    (reading : (ev.map Event.readable).getD false = true → r = true) :
    Walks (Quiet r) (stepDrainProtocol N fuel ev : Method T P Unit) := by
  refine Walks.bind ?_ fun _ => (transportWrite_quiet fuel false).bind fun flushed => ?_
  · split
    · rename_i on
      refine Walks.bind ?_ fun _ => walks_modify fun c => ?_
      · rw [reading on]
        exact walks_iterate (readTurn_quiet (walks_pure _) (walks_pure _)) fuel
      · exact ⟨List.suffix_rfl, fun _ => rfl, fun _ asks => ⟨asks, rfl⟩⟩
    · exact walks_pure _
  · split
    · exact assign_quiet _
    · exact walks_pure _

theorem stepCloseTransport_quiet : Walks (Quiet r) (stepCloseTransport N : Method T P Unit) := by
  unfold stepCloseTransport
  split
  · refine (endpointShutdownStep_quiet _).bind fun status => ?_
    cases status with
    | ok => exact walks_modify quiet_enterClosed
    | error | close => exact error_quiet
    | wantRead | wantWrite => exact arm_quiet _
  · exact walks_modify quiet_enterClosed

/-- Events that are not readable are handled without a read. -/
theorem stepsTurn_quiet (fuel : Nat) {ev : Option Event}
    (reading : (ev.map Event.readable).getD false = true → r = true) :
    Walks (Quiet r) (stepsTurn N fuel ev : Method T P _) := by
  unfold stepsTurn
  refine walks_get.bind fun c => ?_
  cases c.state with
  | uninitialized => exact Walks.bind (walks_modify fun _ => quiet_log rfl rfl rfl) fun _ => walks_failure
  | inProgress =>
      cases ev with
      | none => exact walks_pure _
      | some ev => exact Walks.settle (stepInProgress_quiet fuel ev)
  | transport => exact Walks.settle (stepTransport_quiet fuel)
  | protocol =>
      cases ev with
      | none => exact walks_pure _
      | some ev => exact Walks.settle (stepProtocol_quiet fuel reading)
  | closeProtocol =>
      cases ev with
      | none => exact walks_pure _
      | some ev => exact Walks.settle (stepCloseProtocol_quiet fuel reading)
  | drainProtocol => exact Walks.settle (stepDrainProtocol_quiet fuel reading)
  | closeTransport => exact Walks.settle stepCloseTransport_quiet
  | closed | error => exact walks_pure _

theorem steps_quiet (fuel : Nat) {ev : Event} (unread : ev.readable = false) (c : Conn T P) :
    Quiet false c ((steps N fuel (some ev)).exec c).2 :=
  quiet_path (walks_iterate (stepsTurn_quiet fuel (by simp [unread])) fuel c).1

end Quiet

/-! ## Turns of the session -/

/-- What a session's turn says about going on: the state is still `s`. -/
def Continues (s : State) (consume : Method T P Bool) : Prop :=
  ∀ {c c' : Conn T P} {more : Bool}, c.state = s → consume.exec c = (some more, c') →
    (more = true ↔ c'.state = s)

theorem consumeProtocol_continues (fuel : Nat) :
    Continues .protocol (consumeProtocol N fuel : Method T P Bool) := by
  intro c c' more _ returned
  obtain ⟨-, c₁, -, later⟩ := Prog.exec_bind_returns returned
  cases later
  exact decide_eq_true_iff

theorem consumeClose_continues (fuel : Nat) :
    Continues .closeProtocol (consumeClose N fuel : Method T P Bool) := by
  have turn : ∀ {f : Protocol.Handler P.Session ω} {c c' : Conn T P} {more : Bool},
      (closeTurn N fuel f).exec c = (some (some more), c') → (more = true ↔ c'.state = .closeProtocol) := by
    intro f c c' more returned
    unfold closeTurn at returned
    rw [Prog.exec_get_bind] at returned
    obtain ⟨status, c₁, -, later⟩ := Prog.exec_bind_returns returned
    cases status with
    | ok =>
        obtain ⟨flushed, c₂, -, last⟩ := Prog.exec_bind_returns later
        rw [Prog.exec_get_bind] at last
        split at last
        · rename_i gone
          cases last
          simpa using gone
        · rename_i stays
          split at last
          · cases last
            simpa using stays
          · cases last
    | close =>
        cases later
        simp [Conn.assign]
    | error =>
        cases later
        simp [Conn.enterError_state]
  intro c c' more _ returned
  unfold consumeClose at returned
  split at returned
  · obtain ⟨c₁, -, last⟩ := Prog.exec_iterate_returns (fun _ => True) (fun _ _ _ _ => trivial) fuel c
      trivial returned
    exact turn last
  · cases returned
    simp [Conn.assign]

end Manet.Reactor
