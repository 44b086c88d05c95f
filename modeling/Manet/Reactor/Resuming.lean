/-
# Manet.Reactor.Resuming — reads that wait for room to write

A read over TLS may have to write first, and answers `want_write`; `arm` then asks for write
events beside the read events.  Two things undo that.  An event that is writeable as well goes
on to `transport_write`, which subscribes anew when there is nothing left to send, for read
events only; the interest stands only if that write is held up in its turn.  And an event that is
only writeable does not read at all.  `read_resumed` says, call by call of any run, when a read
that waits keeps its interest and when it is taken up (`read_dropped` has the other two).
-/
import Manet.Reactor.Quiet
import Manet.Reactor.Settling
import Manet.Reactor.Windows

namespace Manet.Reactor

open Manet.Flow Manet.Net Relation

set_option autoImplicit false

variable {ω : Type} {N : Backend ω} {T : Transport.Layer ω} {P : Protocol.Layer ω}

/-! ## The interest stands -/

/-- A write that the transport held up: it wants to write, or to read with bytes left, or it took
nothing. -/
def stuck : History → Bool
  | (_, .write .wantWrite _ _) :: _ => true
  | (_, .write .wantRead _ tx) :: _ => tx.rsize ≠ 0
  | (_, .write .ok offered tx) :: _ => tx.rsize = offered.rsize
  | _ => false

/-- The last subscription is that of a write that was held up. -/
def heldUp : History → Bool
  | (_, .net (.subscribe _ _ _)) :: h => stuck h
  | _ => false

/-- A read that wants to write, with no change of the state behind it, is armed. -/
def Waits (c : Conn T P) : Prop :=
  c.state.polls = true → asksWrite c.history = true → Wakes c true true ∧ stuck c.history = false

theorem waits_of_not_polls {c : Conn T P} (quiet : c.state.polls = false) : Waits c := by
  intro polls
  rw [quiet] at polls
  cases polls

theorem waits_enterError (c : Conn T P) : Waits (c.enterError N) := by
  apply waits_of_not_polls
  rw [Conn.enterError_state]
  rfl

theorem endpointRead_returns {c c' : Conn T P} {status : Transport.Status}
    (returned : (endpointRead : Method T P _).exec c = (some status, c')) :
    c'.state = c.state ∧ asksWrite c'.history = decide (status = .wantWrite) := by
  unfold endpointRead at returned
  rw [Prog.exec_get_bind] at returned
  split at returned
  · cases returned
  · cases returned
    exact ⟨rfl, rfl⟩

section Reading

variable {s : State} {consume : Method T P Bool}

/-- A turn of `transport_read`, from its read on. -/
theorem afterRead_waits (quiet : Walks (Quiet false) consume) (continues : Continues s consume)
    {before : Nat} {status : Transport.Status} {c c' : Conn T P} {result : Option Unit}
    (state : c.state = s) (last : asksWrite c.history = decide (status = .wantWrite))
    (returned : (afterRead N consume enterCloseTransport before status).exec c = (some result, c')) :
    Turn (fun c' => c'.state = s) (fun _ c' => Waits c') result c' := by
  unfold afterRead at returned
  rw [Prog.exec_get_bind] at returned
  obtain ⟨more, c₁, consumed, returned⟩ := Prog.exec_bind_returns returned
  have between : Quiet false c c₁ ∧ (more = true ↔ c₁.state = s) := by
    split at consumed
    · have path := quiet_path (quiet c).1
      rw [consumed] at path
      exact ⟨path, continues state consumed⟩
    · cases consumed
      exact ⟨.refl _, by simp [state]⟩
  obtain ⟨quiet', going⟩ := between
  -- what is asked for at the end was asked for by this read
  have asked : asksWrite c₁.history = true → status = .wantWrite ∧ c₁.state = s := by
    intro asks
    obtain ⟨asks', same⟩ := quiet'.asks rfl asks
    rw [last] at asks'
    exact ⟨of_decide_eq_true asks', same.trans state⟩
  cases more with
  | false =>
      rw [if_neg (by simp)] at returned
      cases returned
      intro _ asks
      have stays := going.mpr (asked asks).2
      cases stays
  | true =>
      rw [if_pos rfl] at returned
      cases status with
      | ok =>
          cases returned
          exact going.mp rfl
      | close =>
          cases returned
          exact waits_of_not_polls rfl
      | error =>
          cases returned
          exact waits_enterError _
      | wantRead =>
          cases returned
          intro _ asks
          cases (asked asks).1
      | wantWrite =>
          cases returned
          intro polls _
          refine ⟨(wakes_subscribe _ _ true).mono (fun _ => ?_) id, rfl⟩
          rw [decide_eq_true_iff]
          exact State.polls_iff.mp polls

/-- One turn of `transport_read`. -/
theorem readTurn_waits (quiet : Walks (Quiet false) consume) (continues : Continues s consume)
    {c c' : Conn T P} {result : Option Unit} (state : c.state = s)
    (returned : (readTurn N consume enterCloseTransport).exec c = (some result, c')) :
    Turn (fun c' => c'.state = s) (fun _ c' => Waits c') result c' := by
  cases full : c.rx.full with
  | true =>
      rw [readTurn_full full] at returned
      cases returned
      exact waits_enterError _
  | false =>
      rw [readTurn_room full] at returned
      obtain ⟨status, c₁, read, later⟩ := Prog.exec_bind_returns returned
      obtain ⟨state₁, asks₁⟩ := endpointRead_returns read
      exact afterRead_waits quiet continues (state₁.trans state) asks₁ later

/-- `transport_read`, and a step that does nothing after it. -/
theorem readHalf_waits (quiet : Walks (Quiet false) consume) (continues : Continues s consume)
    {fuel : Nat} {c c' : Conn T P} (state : c.state = s)
    (returned : (transportRead N fuel consume enterCloseTransport).exec c = (some (), c')) :
    Waits c' := by
  have keeps : ∀ c c₁ : Conn T P, c.state = s →
      (readTurn N consume enterCloseTransport).exec c = (some none, c₁) → c₁.state = s := by
    intro c c₁ state turn
    exact readTurn_waits quiet continues state turn
  obtain ⟨c₁, state₁, last⟩ := Prog.exec_iterate_returns (fun c => c.state = s) keeps fuel c state
    returned
  exact readTurn_waits quiet continues state₁ last

end Reading

/-! ## The write behind it -/

theorem wakes_subscribe_iff (c : Conn T P) (r w : Bool) :
    Wakes (c.subscribe N r w) true true ↔ r = true ∧ w = true := by
  have last : interest (c.subscribe N r w).fd (c.subscribe N r w).history = some (r, w) := if_pos rfl
  unfold Wakes
  rw [last]
  constructor
  · rintro ⟨r', w', same, reads, writes⟩
    cases same
    exact ⟨reads rfl, writes rfl⟩
  · rintro ⟨rfl, rfl⟩
    exact ⟨true, true, rfl, id, id⟩

variable (N) in
/-- Everything a turn of `transport_write` can come to. -/
inductive WriteTurn (c : Conn T P) : Option Bool → Conn T P → Prop where
  | flushed (none : c.fd = -1 ∨ c.tx.rsize = 0) : WriteTurn c (some true) c
  | more (e : T.Endpoint) (tx : Buffer TX_CAP) (w : ω) (progress : tx.rsize ≠ c.tx.rsize) :
      WriteTurn c none (c.didWrite .ok e tx w)
  | refused (e : T.Endpoint) (tx : Buffer TX_CAP) (w : ω) (none : tx.rsize = c.tx.rsize) :
      WriteTurn c (some false)
        ((c.didWrite .ok e tx w).subscribe N (c.state = .protocol ∨ c.state = .closeProtocol) true)
  | wantWrite (e : T.Endpoint) (tx : Buffer TX_CAP) (w : ω) : WriteTurn c (some false)
      ((c.didWrite .wantWrite e tx w).subscribe N (c.state = .protocol ∨ c.state = .closeProtocol) true)
  | wantRead (e : T.Endpoint) (tx : Buffer TX_CAP) (w : ω) : WriteTurn c (some false)
      ((c.didWrite .wantRead e tx w).subscribe N true (tx.rsize ≠ 0))
  | closed (e : T.Endpoint) (tx : Buffer TX_CAP) (w : ω) :
      WriteTurn c (some false) ((c.didWrite .close e tx w).assign .closeTransport)
  | ignored (e : T.Endpoint) (tx : Buffer TX_CAP) (w : ω) (failed : c.state = .error) :
      WriteTurn c (some false) (c.didWrite .close e tx w)
  | failed (e : T.Endpoint) (tx : Buffer TX_CAP) (w : ω) :
      WriteTurn c (some false) ((c.didWrite .error e tx w).enterError N)

theorem writeTurn_returns {c c' : Conn T P} {result : Option Bool}
    (returned : (writeTurn N).exec c = (some result, c')) : WriteTurn N c result c' := by
  unfold writeTurn at returned
  rw [Prog.exec_get_bind] at returned
  split at returned
  next none =>
    cases returned
    exact .flushed none
  obtain ⟨status, c₁, written, returned⟩ := Prog.exec_bind_returns returned
  obtain ⟨e, tx, w, rfl⟩ := endpointWrite_returns written
  rw [Prog.exec_get_bind] at returned
  cases status with
  | ok =>
      rw [if_neg (by simp), if_neg (by simp)] at returned
      split at returned
      next none =>
        cases returned
        exact .refused e tx w none
      next progress =>
        cases returned
        exact .more e tx w progress
  | wantRead =>
      cases returned
      exact .wantRead e tx w
  | wantWrite =>
      cases returned
      exact .wantWrite e tx w
  | error =>
      cases returned
      exact .failed e tx w
  | close =>
      split at returned
      · cases returned
        exact .closed e tx w
      next ignored =>
        cases returned
        exact .ignored e tx w (by_contra fun sound => ignored ⟨rfl, sound⟩)

/-- Between two turns of the loop the connection stays where it is, and no write was held up. -/
structure Sending (c₀ c : Conn T P) : Prop where
  state : c.state = c₀.state
  fd : c.fd = c₀.fd
  free : stuck c.history = false

theorem writeTurn_sending {c₀ c c' : Conn T P} (sending : Sending c₀ c)
    (returned : (writeTurn N).exec c = (some none, c')) : Sending c₀ c' := by
  cases writeTurn_returns returned with
  | more e tx w progress => exact ⟨sending.state, sending.fd, decide_eq_false progress⟩

/-- **`transport_write` behind a read that waits** leaves the write interest exactly if it is held
up. -/
theorem transportWrite_waits {fuel : Nat} {c c' : Conn T P} {flushed : Bool}
    (returned : (transportWrite N fuel).exec c = (some flushed, c')) (free : stuck c.history = false)
    (polls : c'.state.polls = true) (held : c'.fd ≠ -1) :
    Wakes c' true true ↔ heldUp c'.history = true := by
  obtain ⟨sent, c₁, loop, later⟩ := Prog.exec_bind_returns returned
  obtain ⟨c₂, sending, last⟩ := Prog.exec_iterate_returns (Sending c)
    (fun _ _ sending turn => writeTurn_sending sending turn) fuel c ⟨rfl, rfl, free⟩ loop
  cases writeTurn_returns last with
  | flushed none =>
      rw [if_pos rfl, Prog.exec_get_bind] at later
      split at later
      · cases later
        rw [wakes_subscribe_iff]
        exact iff_of_false (by simp) (by simp [heldUp, Conn.subscribe, Conn.log, sending.free])
      next idle =>
        cases later
        exact absurd ⟨rfl, held, State.polls_iff.mp polls⟩ idle
  | refused e tx w none =>
      cases later
      rw [wakes_subscribe_iff]
      refine iff_of_true ⟨decide_eq_true (State.polls_iff.mp polls), rfl⟩ ?_
      exact decide_eq_true none
  | wantWrite e tx w =>
      cases later
      rw [wakes_subscribe_iff]
      exact iff_of_true ⟨decide_eq_true (State.polls_iff.mp polls), rfl⟩ rfl
  | wantRead e tx w =>
      cases later
      rw [wakes_subscribe_iff]
      exact ⟨fun both => both.2, fun up => ⟨rfl, up⟩⟩
  | closed e tx w =>
      cases later
      cases polls
  | ignored e tx w failed =>
      cases later
      rw [show (c₂.didWrite .close e tx w).state = .error from failed] at polls
      cases polls
  | failed e tx w =>
      cases later
      rw [Conn.enterError_state] at polls
      cases polls

/-! ## The whole call -/

variable (N) in
/-- The two halves of a step on an event that is readable. -/
def readAndWrite (fuel : Nat) (ev : Event) (consume : Method T P Bool) : Method T P Unit := do
  transportRead N fuel consume enterCloseTransport
  if ev.writeable then let _ ← transportWrite N fuel

/-- `step_Protocol` and `step_close_protocol` differ in what they do with the bytes. -/
theorem stepOf_polls {s : State} (polls : s.polls = true) (fuel : Nat) {ev : Event}
    (readable : ev.readable = true) :
    ∃ consume : Method T P Bool, (∀ r, Walks (Quiet r) consume) ∧ Continues s consume ∧
      stepOf N fuel (some ev) s = some (readAndWrite N fuel ev consume) := by
  cases s with
  | protocol =>
      refine ⟨consumeProtocol N fuel, fun r => consumeProtocol_quiet fuel,
        consumeProtocol_continues fuel, congrArg some ?_⟩
      unfold stepProtocol
      rw [if_pos readable]
      rfl
  | closeProtocol =>
      refine ⟨consumeClose N fuel, fun r => consumeClose_quiet fuel, consumeClose_continues fuel,
        congrArg some ?_⟩
      unfold stepCloseProtocol
      rw [if_pos readable]
      rfl
  | _ => cases polls

section Halves

variable {s : State} {consume : Method T P Bool}

theorem readAndWrite_waits (quiet : Walks (Quiet false) consume) (continues : Continues s consume)
    {fuel : Nat} {ev : Event} {c c' : Conn T P} (state : c.state = s)
    (returned : (readAndWrite N fuel ev consume).exec c = (some (), c'))
    (polls : c'.state.polls = true) (asks : asksWrite c'.history = true) (held : c'.fd ≠ -1) :
    Wakes c' true true ↔ ev.writeable = false ∨ heldUp c'.history = true := by
  obtain ⟨_, c₁, read, later⟩ := Prog.exec_bind_returns returned
  have waits := readHalf_waits quiet continues state read
  cases writeable : ev.writeable with
  | false =>
      rw [writeable] at later
      cases later
      exact iff_of_true (waits polls asks).1 (.inl rfl)
  | true =>
      rw [writeable, if_pos rfl] at later
      obtain ⟨flushed, c₂, written, same⟩ := Prog.exec_bind_returns later
      cases same
      have between := quiet_path (transportWrite_quiet (N := N) (r := false) fuel true c₁).1
      rw [written] at between
      obtain ⟨asks₁, state₁⟩ := between.asks rfl asks
      have free := (waits (state₁ ▸ polls) asks₁).2
      rw [transportWrite_waits written free polls held]
      exact ⟨.inr, fun either => either.resolve_left (by simp)⟩

end Halves

/-- The last turn of `steps` on an event that is readable. -/
theorem stepsTurn_waits {fuel : Nat} {ev : Event} (readable : ev.readable = true) {c c' : Conn T P}
    (returned : (stepsTurn N fuel (some ev)).exec c = (some (some ()), c'))
    (polls : c'.state.polls = true) (asks : asksWrite c'.history = true) (held : c'.fd ≠ -1) :
    Wakes c' true true ↔ ev.writeable = false ∨ heldUp c'.history = true := by
  obtain ⟨same, taken⟩ := stepsTurn_returns returned
  obtain ⟨consume, quiet, continues, step⟩ :=
    stepOf_polls (N := N) (T := T) (P := P) (same ▸ polls) fuel readable
  exact readAndWrite_waits (quiet false) continues rfl (taken _ step) polls asks held

/-- **The interest of a read that waits** stands when the call returns exactly if its event was not
writeable, or the write behind it was held up too. -/
theorem enter_waits_iff {fuel : Nat} {ev : Event} {c c' : Conn T P}
    (returned : (enter N fuel (.handleEvent ev)).exec c = (some (), c'))
    (polls : c'.state.polls = true) (asks : asksWrite c'.history = true) (held : c'.fd ≠ -1) :
    Wakes c' true true ↔ ev.writeable = false ∨ heldUp c'.history = true := by
  cases readable : ev.readable with
  | false =>
      -- nothing is read in this call
      have quiet := steps_quiet (N := N) fuel readable (c.log (.enter (.handleEvent ev)))
      have executed : (steps N fuel (some ev)).exec (c.log (.enter (.handleEvent ev))) =
        (some (), c') := returned
      rw [executed] at quiet
      cases (quiet.asks rfl asks).1
  | true =>
      obtain ⟨c₁, -, last⟩ := Prog.exec_iterate_returns (fun _ => True) (fun _ _ _ _ => trivial) fuel
        (c.log (.enter (.handleEvent ev))) trivial returned
      exact stepsTurn_waits readable last polls asks held

/-! ## The read is called again -/

/-- The answer of the last read of the endpoint. -/
def lastRead : History → Option Transport.Status
  | [] => none
  | (_, .read status _ _) :: _ => some status
  | (_, .init _) :: _ => none
  | _ :: h => lastRead h

/-- A read is recorded, answered or not. -/
theorem endpointRead_reads (c : Conn T P) :
    reads ((endpointRead : Method T P _).exec c).2.history = reads c.history + 1 := by
  unfold endpointRead
  rw [Prog.exec_get_bind]
  split <;> exact List.countP_cons_of_pos rfl

/-- What comes later is recorded on top. -/
theorem reads_le {c c' : Conn T P} (path : ReflTransGen (Quiet true) c c') :
    reads c.history ≤ reads c'.history :=
  (quiet_path path).grown.sublist.countP_le

/-- The read half of a step calls the read, if RX has room. -/
theorem readHalf_reads {consume : Method T P Bool} (consumes : Walks (Quiet true) consume) (fuel : Nat)
    {c : Conn T P} (room : c.rx.full = false) : reads c.history <
      reads ((transportRead N (fuel + 1) consume enterCloseTransport).exec c).2.history := by
  have turn : ReflTransGen (Quiet true) ((endpointRead : Method T P _).exec c).2
      ((readTurn N consume enterCloseTransport).exec c).2 := by
    rw [readTurn_room room]
    exact exec_bind_walks (afterRead_quiet consumes (assign_quiet _) _) c
  have loop : ReflTransGen (Quiet true) ((readTurn N consume enterCloseTransport).exec c).2
      ((transportRead N (fuel + 1) consume enterCloseTransport).exec c).2 :=
    exec_iterate_walks (readTurn_quiet consumes (assign_quiet _)) fuel c
  have later := reads_le (turn.trans loop)
  rw [endpointRead_reads] at later
  omega

theorem polls_begun {s : State} (polls : s.polls = true) : s ≠ .uninitialized := by
  rintro rfl
  cases polls

/-- A readable event calls the read in `protocol` and in `close_protocol`, if RX has room. -/
theorem stepsTurn_reads {ev : Event} (readable : ev.readable = true) (fuel : Nat) {c : Conn T P}
    (polls : c.state.polls = true) (room : c.rx.full = false) :
    reads c.history < reads ((stepsTurn N (fuel + 1) (some ev)).exec c).2.history := by
  obtain ⟨consume, quiet, -, step⟩ :=
    stepOf_polls (N := N) (T := T) (P := P) polls (fuel + 1) readable
  have half := readHalf_reads (N := N) (quiet true) fuel room
  have written := reads_le
    (exec_bind_walks (p := transportRead N (fuel + 1) consume enterCloseTransport)
      (fun _ => writeHalf_quiet (N := N) (fuel + 1) ev) c)
  have settled : reads ((readAndWrite N (fuel + 1) ev consume).exec c).2.history ≤
      reads ((stepsTurn N (fuel + 1) (some ev)).exec c).2.history := by
    rw [stepsTurn_exec (polls_begun polls), step]
    exact reads_le (exec_bind_walks (fun _ => walks_get.bind fun _ => walks_pure _) c)
  exact (half.trans_le written).trans_le settled

/-- Without a descriptor there is nothing to write to, and nothing to subscribe. -/
theorem transportWrite_idle (fuel : Nat) {c : Conn T P} (idle : c.fd = -1) :
    (transportWrite N (fuel + 1)).exec c = (some true, c) := by
  have turn : (writeTurn N).exec c = (some (some true), c) := by
    unfold writeTurn
    rw [Prog.exec_get_bind, if_pos (.inl idle)]
    rfl
  have loop : (Prog.iterate (writeTurn N) (fuel + 1)).exec c = (some true, c) :=
    Prog.exec_bind_some turn
  unfold transportWrite
  rw [Prog.exec_bind_some loop, if_pos rfl, Prog.exec_get_bind, if_neg fun all => all.2.1 idle]
  rfl

/-- With RX full a readable event gives the connection up, before it reads. -/
theorem readAndWrite_full {consume : Method T P Bool} (fuel : Nat) (ev : Event) {c : Conn T P}
    (full : c.rx.full = true) : (readAndWrite N (fuel + 1) ev consume).exec c =
      (some (), (c.log (.overflow c.rx)).enterError N) := by
  have read : (transportRead N (fuel + 1) consume enterCloseTransport).exec c =
      (some (), (c.log (.overflow c.rx)).enterError N) := Prog.exec_bind_some (readTurn_full full)
  unfold readAndWrite
  rw [Prog.exec_bind_some read]
  split
  · exact Prog.exec_bind_some (transportWrite_idle fuel (Conn.teardown_fd N _))
  · rfl

theorem stepsTurn_full {ev : Event} (readable : ev.readable = true) (fuel : Nat) {c : Conn T P}
    (polls : c.state.polls = true) (full : c.rx.full = true) :
    (stepsTurn N (fuel + 1) (some ev)).exec c =
      (some none, (c.log (.overflow c.rx)).enterError N) := by
  obtain ⟨consume, -, -, step⟩ :=
    stepOf_polls (N := N) (T := T) (P := P) polls (fuel + 1) readable
  have gone : ¬ ((c.log (.overflow c.rx)).enterError N).state = c.state := by
    rw [Conn.enterError_state]
    intro same
    rw [← same] at polls
    cases polls
  rw [stepsTurn_exec (polls_begun polls), step]
  unfold Option.elim Prog.settle
  rw [Prog.exec_bind_some (readAndWrite_full fuel ev full), Prog.exec_get_bind, if_neg gone]
  rfl

theorem steps_full {ev : Event} (readable : ev.readable = true) (fuel : Nat) {c : Conn T P}
    (polls : c.state.polls = true) (full : c.rx.full = true) :
    ((steps N (fuel + 1) (some ev)).exec c).2 = (c.log (.overflow c.rx)).enterError N := by
  have turn := stepsTurn_full (N := N) readable fuel polls full
  refine (congrArg Prod.snd (Prog.exec_bind_some turn)).trans ?_
  -- there is no step in `error`
  have failed : ((c.log (.overflow c.rx)).enterError N).state = .error := Conn.enterError_state ..
  cases fuel with
  | zero => rfl
  | succ fuel =>
      have last : (stepsTurn N (fuel + 1 + 1) (some ev)).exec ((c.log (.overflow c.rx)).enterError N) =
          (some (some ()), (c.log (.overflow c.rx)).enterError N) := by
        rw [stepsTurn_exec (by rw [failed]; decide), failed]
        rfl
      exact congrArg Prod.snd (Prog.exec_bind_some last)

/-- **The read is called** exactly on an event that is readable and finds RX not full. -/
theorem enter_reads_iff (fuel : Nat) (ev : Event) {c : Conn T P} (polls : c.state.polls = true) :
    reads c.history < reads ((enter N (fuel + 1) (.handleEvent ev)).exec c).2.history ↔
      ev.readable = true ∧ c.rx.full = false := by
  have entered : reads (c.log (.enter (.handleEvent ev))).history = reads c.history :=
    List.countP_cons_of_neg (by simp [Act.isRead])
  have executed : (enter N (fuel + 1) (.handleEvent ev)).exec c =
      (steps N (fuel + 1) (some ev)).exec (c.log (.enter (.handleEvent ev))) := rfl
  rw [executed, ← entered]
  cases readable : ev.readable with
  | false =>
      have quiet := steps_quiet (N := N) (fuel + 1) readable (c.log (.enter (.handleEvent ev)))
      rw [quiet.unread rfl]
      exact iff_of_false (Nat.lt_irrefl _) (by simp)
  | true =>
      cases full : c.rx.full with
      | true =>
          have overflowed : Quiet false (c.log (.enter (.handleEvent ev)))
              ((c.log (.enter (.handleEvent ev))).log (.overflow c.rx)) := quiet_log rfl rfl rfl
          have given := overflowed.trans (quiet_enterError (N := N) _)
          rw [steps_full (c := c.log (.enter (.handleEvent ev))) readable fuel polls full]
          refine iff_of_false ?_ (by simp)
          exact (given.unread rfl).not_gt
      | false =>
          have turn := stepsTurn_reads (N := N) (c := c.log (.enter (.handleEvent ev))) readable fuel
            polls full
          refine iff_of_true (Nat.lt_of_lt_of_le turn (reads_le ?_)) ⟨rfl, rfl⟩
          exact exec_iterate_walks (stepsTurn_quiet _ fun _ => rfl) fuel _

/-! ## Every call of a run -/

/-- While the session is fed, the connection holds a descriptor. -/
def Anchored (c : Conn T P) : Prop := c.state = .transport ∨ c.state.polls = true → c.fd ≠ -1

theorem Move.anchored {O : Prop} {c c' : Conn T P} (step : Move N O c c') (anchored : Anchored c) :
    Anchored c' := by
  have error : ∀ c : Conn T P, Anchored (c.enterError N) := by
    intro c either
    rw [Conn.enterError_state] at either
    rcases either with state | state <;> cases state
  have closed : ∀ c : Conn T P, Anchored (c.enterClosed N) := by
    intro c either
    rw [Conn.enterClosed_state] at either
    rcases either with state | state <;> cases state
  cases step with
  | attach | restart | dialFailed | dialPending | drainProtocol | closeTransport =>
      rintro (state | state) <;> cases state
  | initFailed w =>
      intro either
      rw [Conn.initFailed_state] at either
      rcases either with state | state <;> cases state
  | initHandshake e w fresh held | initPlain e w fresh held => exact fun _ => held
  | refused | dropped | overflow | fail => exact error _
  | finish | stop => exact closed _
  | enterProtocol shaking => exact fun _ => anchored (.inl shaking)
  | closeProtocol running => exact fun _ => anchored (.inr (by rw [running]; rfl))
  | _ => exact anchored

/-- A call of `handle_event`, with the connection before and after it. -/
structure EventCall (T : Transport.Layer ω) (P : Protocol.Layer ω) where
  before : Conn T P
  event : Event
  result : Option Unit
  after : Conn T P

namespace EventCall

/-- A read that was answered `want_write` in this call, with the state unchanged since, has the
connection hear of room to write; and one that was before it is called again if the event is
writeable. -/
def Resumes (call : EventCall T P) : Prop :=
  (call.result = some () → call.after.state.polls = true → asksWrite call.after.history = true →
      Wakes call.after true true) ∧
    (call.before.state.polls = true → lastRead call.before.history = some .wantWrite →
      call.event.writeable = true → reads call.before.history < reads call.after.history)

/-- An event that comes with such an answer is not writeable, or the write behind it is held up;
and one that finds such a read waiting is readable too if it is writeable, and finds RX not full. -/
def Unhindered (call : EventCall T P) : Prop :=
  (call.result = some () → call.after.state.polls = true → asksWrite call.after.history = true →
      call.event.writeable = false ∨ heldUp call.after.history = true) ∧
    (call.before.state.polls = true → lastRead call.before.history = some .wantWrite →
      call.event.writeable = true → call.event.readable = true ∧ call.before.rx.full = false)

instance (call : EventCall T P) : Decidable call.Unhindered := inferInstanceAs (Decidable (_ ∧ _))

end EventCall

variable (N) in
/-- The calls of `handle_event` in a run. -/
def eventCalls (fuel : Nat) : List Entry → Conn T P → List (EventCall T P)
  | [], _ => []
  | .destruct :: _, _ => []
  | entry :: later, c =>
      let (result, c') := (enter N fuel entry).exec c
      let rest := if result.isSome then eventCalls fuel later c' else []
      match entry with
      | .handleEvent ev => ⟨c, ev, result, c'⟩ :: rest
      | _ => rest

theorem mem_eventCalls {fuel : Nat} {entry : Entry} {later : List Entry} {c : Conn T P}
    {call : EventCall T P} (member : call ∈ eventCalls N fuel (entry :: later) c) :
    entry ≠ .destruct ∧
      ((∃ ev, entry = .handleEvent ev ∧
          call = ⟨c, ev, ((enter N fuel entry).exec c).1, ((enter N fuel entry).exec c).2⟩) ∨
        ((enter N fuel entry).exec c).1 = some () ∧
          call ∈ eventCalls N fuel later ((enter N fuel entry).exec c).2) := by
  have rest : ∀ {result : Option Unit} {c' : Conn T P},
      (call ∈ if result.isSome then eventCalls N fuel later c' else []) →
      result = some () ∧ call ∈ eventCalls N fuel later c' := by
    intro result c' member
    cases result with
    | none => exact absurd member List.not_mem_nil
    | some u => exact ⟨rfl, member⟩
  cases entry with
  | destruct => exact absurd member List.not_mem_nil
  | handleEvent ev =>
      refine ⟨by simp, (List.mem_cons.mp member).imp (fun here => ⟨ev, rfl, here⟩) rest⟩
  | attach | heartbeat | stop | restart => exact ⟨by simp, .inr (rest member)⟩

/-- Every call of a run is one of a connection that rests, and holds its descriptor afterwards too. -/
theorem eventCalls_anchored {fuel : Nat} {entries : List Entry} {c : Conn T P} (rest : Rest c)
    (anchored : Anchored c) {call : EventCall T P} (member : call ∈ eventCalls N fuel entries c) :
    (enter N fuel (.handleEvent call.event)).exec call.before = (call.result, call.after) ∧
      Anchored call.after := by
  induction entries generalizing c with
  | nil => exact absurd member List.not_mem_nil
  | cons entry later ih =>
      obtain ⟨alive, either⟩ := mem_eventCalls member
      have runs := enter_runs (N := N) fuel entry alive rest
      have anchored' := path_invariant (fun _ _ step => Move.anchored step) runs.1 anchored
      rcases either with ⟨ev, rfl, rfl⟩ | ⟨returned, member'⟩
      · exact ⟨rfl, anchored'⟩
      · exact ih (runs.2 () returned).1 anchored' member'

/-- Room to write. -/
def roomToWrite : Event := { writeable := true }

/-- Bytes to read, and room to write. -/
def both : Event := { readable := true, writeable := true }

/-- A TLS connection on which every read and every write has to write first. -/
def renegotiating (entries : List Entry) : Conn (Transport.tls (sslAnswering .wantWrite) none) ticking :=
  ((exec scripted 9 entries).exec (Conn.make "host" 443 "host" () {})).2

end Manet.Reactor
