/-
# Manet.Reactor.Calls — the order of the protocol calls

`Stage` is the typestate of a session, from the descriptor's adoption to its teardown,
and `Stage.next` says which calls each stage allows: `on_connect` only as the first
call once the handshake is through, `on_data` only on unread bytes, only `on_shutdown`
after a handler's `close` or a `stop`, and nothing but `teardown` after that.
`typestate` runs it over a history and is `none` from the first call out of order.

It never is (`call_order`): at every point of every run the stage is known, it agrees
with `_state` and `_fd` (`Follows`), and a connection that is done or destructed has
torn its session down exactly as often as it adopted a descriptor.
-/
import Manet.Reactor.Ownership

namespace Manet.Reactor

open Manet.Flow Manet.Net Relation

set_option autoImplicit false

/-- How far the session of the adopted descriptor has come. -/
inductive Stage where
  /-- No descriptor. -/
  | free
  /-- The transport is still shaking hands. -/
  | shaking
  /-- Nothing has been called. -/
  | fresh
  | serving
  /-- A handler answered `close`, or the connection was stopped. -/
  | parting
  /-- `on_shutdown` answered `close`, or a handler an error. -/
  | over
  | torn
  deriving DecidableEq, Repr

namespace Stage

/-- The session belongs to a descriptor and has not been torn down. -/
def live : Stage → Bool
  | .free | .torn => false
  | _ => true

/-- `on_data` and `heartbeat` may be called. -/
def serves : Stage → Bool
  | .fresh | .serving => true
  | _ => false

/-- What the answer of `on_connect` or `on_data` leads to. -/
def answered : Protocol.Status → Stage
  | .ok => .serving
  | .close => .parting
  | .error => .over

/-- A handler is called and answers; `none` if the stage does not allow it. -/
def handle (stage : Stage) (kind : Protocol.HandlerKind) (status : Protocol.Status)
    (offered : Io) : Option Stage :=
  match kind with
  | .onConnect => if stage = .fresh then some (answered status) else none
  | .onData => if stage.serves ∧ offered.rx.rsize ≠ 0 then some (answered status) else none
  | .onShutdown =>
      if stage = .parting then some (if status = .ok then .parting else .over) else none

/-- The stage after an act; `none` if it is a protocol call out of order.  `shakes` and
`tears` say whether `handshake_step` and `teardown` are declared. -/
def next (shakes tears : Bool) (s : State) (act : Act) (stage : Stage) : Option Stage :=
  match act with
  | .adopt fd =>
      if stage = .free then
        some (if fd = -1 then .free else if shakes then .shaking else .fresh)
      else none
  | .handshakeStep .ok => some (if stage = .shaking then .fresh else stage)
  | .handler kind status before _ => stage.handle kind status before
  | .noReturn (.handler kind offered) => stage.handle kind .ok offered
  | .heartbeat _ _ | .noReturn .heartbeat => if stage.serves then some .serving else none
  | .enter .stop => some (if s = .protocol ∧ stage.serves then .parting else stage)
  | .teardown => if stage.live then some .torn else none
  -- the descriptor is given back: no earlier than its session is torn down
  | .net (.close _) => if tears ∧ stage.live then none else some .free
  | _ => some stage

end Stage

def typestate (shakes tears : Bool) : History → Option Stage
  | [] => some .free
  | (s, act) :: h => (typestate shakes tears h).bind (·.next shakes tears s act)

/-- How many descriptors the connection adopted. -/
def adoptions : History → Nat
  | [] => 0
  | (_, .adopt fd) :: h => adoptions h + if fd = -1 then 0 else 1
  | _ :: h => adoptions h

def teardowns : History → Nat
  | [] => 0
  | (_, .teardown) :: h => teardowns h + 1
  | _ :: h => teardowns h

theorem Stage.live_of_serves {stage : Stage} (serves : stage.serves = true) : stage.live = true := by
  cases stage <;> first | rfl | cases serves

/-- A handler is called on a live session, and leaves it live. -/
theorem Stage.handle_live {stage stage' : Stage} {kind : Protocol.HandlerKind}
    {status : Protocol.Status} {offered : Io}
    (handled : stage.handle kind status offered = some stage') :
    stage.live = true ∧ stage'.live = true := by
  have answer : (Stage.answered status).live = true := by cases status <;> rfl
  cases kind with
  | onConnect =>
      simp only [Stage.handle, Option.ite_none_right_eq_some, Option.some.injEq] at handled
      obtain ⟨rfl, rfl⟩ := handled
      exact ⟨rfl, answer⟩
  | onData =>
      simp only [Stage.handle, Option.ite_none_right_eq_some, Option.some.injEq] at handled
      obtain ⟨⟨serves, -⟩, rfl⟩ := handled
      exact ⟨live_of_serves serves, answer⟩
  | onShutdown =>
      simp only [Stage.handle, Option.ite_none_right_eq_some, Option.some.injEq] at handled
      obtain ⟨rfl, rfl⟩ := handled
      exact ⟨rfl, by split <;> rfl⟩

theorem Stage.beat_live {stage stage' : Stage}
    (beaten : (if stage.serves then some Stage.serving else none) = some stage') :
    stage.live = true ∧ stage'.live = true := by
  simp only [Option.ite_none_right_eq_some, Option.some.injEq] at beaten
  obtain ⟨serves, rfl⟩ := beaten
  exact ⟨live_of_serves serves, rfl⟩

/-- Only an adoption makes a session live, and only a teardown ends it. -/
theorem Stage.next_counts {shakes : Bool} {s : State} {act : Act} {stage stage' : Stage}
    (next : stage.next shakes true s act = some stage') (h : History) :
    teardowns ((s, act) :: h) + adoptions h + stage'.live.toNat =
      teardowns h + adoptions ((s, act) :: h) + stage.live.toNat := by
  cases act with
  | adopt fd =>
      simp only [Stage.next, Option.ite_none_right_eq_some, Option.some.injEq] at next
      obtain ⟨rfl, rfl⟩ := next
      by_cases failed : fd = -1
      · simp [teardowns, adoptions, failed, Stage.live]
      · cases shakes <;> simp [teardowns, adoptions, failed, Stage.live] <;> omega
  | teardown =>
      simp only [Stage.next, Option.ite_none_right_eq_some, Option.some.injEq] at next
      obtain ⟨lives, rfl⟩ := next
      have gone : Stage.torn.live = false := rfl
      simp only [teardowns, adoptions, lives, gone, Bool.toNat_true, Bool.toNat_false]
      omega
  | handler =>
      obtain ⟨before, after⟩ := handle_live next
      simp [teardowns, adoptions, before, after]
  | heartbeat =>
      obtain ⟨before, after⟩ := beat_live next
      simp [teardowns, adoptions, before, after]
  | noReturn callee =>
      cases callee with
      | handler =>
          obtain ⟨before, after⟩ := handle_live next
          simp [teardowns, adoptions, before, after]
      | heartbeat =>
          obtain ⟨before, after⟩ := beat_live next
          simp [teardowns, adoptions, before, after]
      | _ =>
          cases next
          rfl
  | net call =>
      cases call with
      | close fd =>
          simp only [Stage.next, Option.ite_none_left_eq_some, Option.some.injEq, true_and] at next
          obtain ⟨gone, rfl⟩ := next
          have dead : stage.live = false := by simpa using gone
          have free : Stage.free.live = false := rfl
          simp [teardowns, adoptions, dead, free]
      | _ =>
          cases next
          rfl
  | handshakeStep status =>
      cases status with
      | ok =>
          cases next
          have same : (if stage = .shaking then Stage.fresh else stage).live = stage.live := by
            split
            · rename_i shaking
              rw [shaking]
              rfl
            · rfl
          simp [teardowns, adoptions, same]
      | _ =>
          cases next
          rfl
  | enter entry =>
      cases entry with
      | stop =>
          cases next
          have same : (if s = .protocol ∧ stage.serves then Stage.parting else stage).live =
              stage.live := by
            split
            · rename_i stopped
              rw [live_of_serves stopped.2]
              rfl
            · rfl
          simp [teardowns, adoptions, same]
      | _ =>
          cases next
          rfl
  | _ =>
      cases next
      rfl

/-- Every adopted descriptor's session has been torn down once, or is the live one. -/
theorem teardowns_eq_adoptions {shakes : Bool} {h : History} {stage : Stage}
    (read : typestate shakes true h = some stage) :
    teardowns h + stage.live.toNat = adoptions h := by
  induction h generalizing stage with
  | nil =>
      cases read
      rfl
  | cons entry h ih =>
      obtain ⟨s, act⟩ := entry
      obtain ⟨before, older, next⟩ := Option.bind_eq_some_iff.mp read
      have counted := Stage.next_counts next h
      have earlier := ih older
      omega

variable {ω : Type} {N : Backend ω} {T : Transport.Layer ω} {P : Protocol.Layer ω}

/-- The typestate of a connection's session. -/
abbrev Conn.typestate (c : Conn T P) : Option Stage :=
  Reactor.typestate T.handshakeStep.isSome P.teardown.isSome c.history

/-- The stage of a session that is called, from its own answers and `stop`. -/
def Stage.Due (leaves gone : Bool) (stage : Stage) : Prop :=
  if gone then stage = .over else if leaves then stage = .parting else stage.serves = true

theorem Stage.Due.live {leaves gone : Bool} {stage : Stage} (due : Stage.Due leaves gone stage) :
    stage.live = true ∧ stage ≠ .shaking := by
  unfold Stage.Due at due
  split at due
  · subst due
    decide
  split at due
  · subst due
    decide
  · refine ⟨live_of_serves due, ?_⟩
    rintro rfl
    cases due

/-- What the stage says about a connection. -/
structure Follows (c : Conn T P) (stage : Stage) : Prop where
  read : c.typestate = some stage
  idle : c.fd = -1 → stage = .free
  live : c.fd ≠ -1 → stage.live = true
  held : 1 ≤ c.state.rank → c.state.rank ≤ 4 → c.fd ≠ -1
  plain : T.handshakeStep = none → stage ≠ .shaking
  early : c.state.rank < 3 → c.fd ≠ -1 → stage = .shaking ∨ stage = .fresh
  silent : c.state.rank < 3 → leaving c.history = false
  first : ∀ s, c.history.head? = some (s, .assign .protocol) → stage = .fresh
  due : c.state.polls = true → stage.Due (leaving c.history) (dismissed c.history)
  closing : c.state = .closeProtocol → leaving c.history = true

/-- An act that is no protocol call. -/
theorem Follows.logged {c c' : Conn T P} {stage : Stage} (follows : Follows c stage) {s : State}
    {act : Act} (history : c'.history = (s, act) :: c.history) (state : c'.state = c.state)
    (fd : c'.fd = c.fd)
    (quiet : stage.next T.handshakeStep.isSome P.teardown.isSome s act = some stage)
    (stays : leaving ((s, act) :: c.history) = leaving c.history)
    (same : dismissed ((s, act) :: c.history) = dismissed c.history)
    (other : act ≠ .assign .protocol) : Follows c' stage where
  read := by
    rw [Conn.typestate, history]
    exact Option.bind_eq_some_iff.mpr ⟨stage, follows.read, quiet⟩
  idle := fd ▸ follows.idle
  live := fd ▸ follows.live
  held := state ▸ fd ▸ follows.held
  plain := follows.plain
  early := state ▸ fd ▸ follows.early
  silent := by
    rw [state, history, stays]
    exact follows.silent
  first s' head := by
    rw [history] at head
    cases head
    exact absurd rfl other
  due := by
    rw [state, history, stays, same]
    exact follows.due
  closing := by
    rw [state, history, stays]
    exact follows.closing

/-- The states before the session is called, while a descriptor is held. -/
theorem follows_early {c : Conn T P} {stage : Stage} (read : c.typestate = some stage)
    (held : c.fd ≠ -1) (early : stage = .shaking ∧ T.handshakeStep ≠ none ∨ stage = .fresh)
    (rank : c.state.rank < 3) (silent : leaving c.history = false)
    (head : ∀ s, c.history.head? ≠ some (s, .assign .protocol)) : Follows c stage where
  read := read
  idle idle := absurd idle held
  live _ := by rcases early with ⟨rfl, -⟩ | rfl <;> rfl
  held _ _ := held
  plain plain := by
    rcases early with ⟨-, declared⟩ | rfl
    · exact absurd plain declared
    · simp
  early _ _ := early.imp And.left id
  silent _ := silent
  first s first := absurd first (head s)
  due polls := by
    have later := State.rank_of_polls polls
    omega
  closing state := by
    rw [state] at rank
    simp [State.rank] at rank

/-- The states in which the session is called. -/
theorem follows_polling {c : Conn T P} {stage : Stage} (read : c.typestate = some stage)
    (held : c.fd ≠ -1) (polls : c.state.polls = true)
    (due : stage.Due (leaving c.history) (dismissed c.history))
    (closing : c.state = .closeProtocol → leaving c.history = true)
    (first : ∀ s, c.history.head? = some (s, .assign .protocol) → stage = .fresh) :
    Follows c stage where
  read := read
  idle idle := absurd idle held
  live _ := due.live.1
  held _ _ := held
  plain _ := due.live.2
  early early := by
    have later := State.rank_of_polls polls
    omega
  silent early := by
    have later := State.rank_of_polls polls
    omega
  first := first
  due _ := due
  closing := closing

/-- Past `close_protocol` only the descriptor matters. -/
theorem follows_late {c : Conn T P} {stage : Stage} (read : c.typestate = some stage)
    (idle : c.fd = -1 → stage = .free) (live : c.fd ≠ -1 → stage.live = true)
    (plain : T.handshakeStep = none → stage ≠ .shaking) (late : 4 < c.state.rank)
    (head : ∀ s, c.history.head? ≠ some (s, .assign .protocol)) : Follows c stage where
  read := read
  idle := idle
  live := live
  held _ early := absurd early (by omega)
  plain := plain
  early early := absurd early (by omega)
  silent early := absurd early (by omega)
  first s first := absurd first (head s)
  due polls := by
    have earlier := State.rank_of_polls polls
    omega
  closing state := by
    rw [state] at late
    simp [State.rank] at late

/-! ## Giving a descriptor back -/

/-- Given back, a descriptor leaves no session behind. -/
theorem typestate_release {c : Conn T P} {stage : Stage} (read : c.typestate = some stage)
    (live : stage.live = true) (fd fd' : Int) (s : State) (between : History)
    (quiet : between = [] ∨ between = [(s, .destroy)]) :
    typestate T.handshakeStep.isSome P.teardown.isSome
      ((s, .net (.close fd)) :: (s, .net (.clear fd')) :: (between ++ c.sessionTeardown.history)) =
        some .free := by
  have torn : ∃ stage', typestate T.handshakeStep.isSome P.teardown.isSome
      c.sessionTeardown.history = some stage' ∧
        ¬ (P.teardown.isSome = true ∧ stage'.live = true) := by
    unfold Conn.sessionTeardown
    rcases declared : P.teardown with _ | f
    · exact ⟨stage, by simpa [Conn.typestate, declared] using read, by simp⟩
    · refine ⟨.torn, ?_, by simp [Stage.live]⟩
      replace read : typestate T.handshakeStep.isSome true c.history = some stage := by
        simpa [Conn.typestate, declared] using read
      show (typestate T.handshakeStep.isSome true c.history).bind _ = _
      rw [read]
      exact if_pos live
  obtain ⟨stage', read', gone⟩ := torn
  rcases quiet with rfl | rfl <;> simp [typestate, read', Stage.next] <;> simpa using gone

theorem typestate_teardown {c : Conn T P} {stage : Stage} (read : c.typestate = some stage)
    (idle : c.fd = -1 → stage = .free) (live : c.fd ≠ -1 → stage.live = true) :
    (c.teardown N).typestate = some .free := by
  by_cases held : c.fd = -1
  · rw [Conn.teardown_idle N held, read, idle held]
  · rw [Conn.typestate, Conn.teardown_history N held]
    exact typestate_release read (live held) _ _ _ [_] (.inr rfl)

/-- A connection that is done has no session left. -/
theorem follows_free {c : Conn T P} (read : c.typestate = some .free) (idle : c.fd = -1)
    (done : c.state.terminal = true)
    (head : ∀ s, c.history.head? ≠ some (s, .assign .protocol)) : Follows c .free := by
  refine follows_late read (fun _ => rfl) (fun held => absurd idle held) (by simp) ?_ head
  rw [State.rank_of_terminal done]
  decide

theorem Follows.finished {c : Conn T P} {stage : Stage} (follows : Follows c stage) {s : State}
    (terminal : s.terminal = true) : Follows ((c.assign s).teardown N) .free := by
  have read : (c.assign s).typestate = some stage :=
    Option.bind_eq_some_iff.mpr ⟨stage, follows.read, rfl⟩
  refine follows_free (typestate_teardown read follows.idle follows.live) (Conn.teardown_fd N _)
    (by rw [Conn.teardown_state]; exact terminal) ?_
  intro s' head
  by_cases held : (c.assign s).fd = -1
  · rw [Conn.teardown_idle N held] at head
    cases head
    cases terminal
  · rw [Conn.teardown_history N held] at head
    cases head

theorem Follows.notInit {c : Conn T P} {stage : Stage} (follows : Follows c stage) (w : ω)
    (held : c.fd ≠ -1) : Follows (c.initFailed N w) .free := by
  have read : ((c.notInitialised w).assign .error).typestate = some stage := by
    refine Option.bind_eq_some_iff.mpr ⟨stage, ?_, rfl⟩
    exact Option.bind_eq_some_iff.mpr ⟨stage, follows.read, rfl⟩
  refine follows_free ?_ (Conn.initFailed_fd N c w) (by rw [Conn.initFailed_state]; rfl) ?_
  · rw [Conn.typestate, Conn.initFailed_history N w held]
    exact typestate_release read (follows.live held) _ _ _ [] (.inl rfl)
  · intro s head
    rw [Conn.initFailed_history N w held] at head
    cases head

/-! ## Adopting one -/

theorem typestate_calls {shakes tears : Bool} (calls : List NetCall) (s : State) {h : History}
    (free : typestate shakes tears h = some .free) :
    typestate shakes tears (calls.map (fun call => (s, Act.net call)) ++ h) = some .free := by
  induction calls with
  | nil => exact free
  | cons call calls ih =>
      rw [List.map_cons, List.cons_append, typestate, ih]
      cases call with
      | close fd => cases tears <;> rfl
      | _ => rfl

/-- What a dial leaves of a connection without a session. -/
theorem typestate_dial {c : Conn T P} (free : c.typestate = some .free) :
    (c.dial N).2.typestate = some (if (c.dial N).2.fd = -1 then .free
      else if T.handshakeStep.isSome then .shaking else .fresh) := by
  show (typestate T.handshakeStep.isSome P.teardown.isSome
    ((Net.dial N c.host c.port c.world).2.2.map (fun call => (c.state, Act.net call)) ++
      c.history)).bind _ = _
  rw [typestate_calls _ _ free]
  rfl

/-- A new epoch begins without a session, and adopts the dialed descriptor. -/
theorem follows_dialed {c : Conn T P} (free : c.typestate = some .free) :
    ∃ stage, Follows (c.begin.dial N).2 stage := by
  have begun : c.begin.typestate = some .free := Option.bind_eq_some_iff.mpr ⟨.free, free, rfl⟩
  have silent := silent_dialed (N := N) c
  have read := typestate_dial (N := N) begun
  by_cases failed : (c.begin.dial N).2.fd = -1
  · rw [if_pos failed] at read
    exact ⟨.free,
      { read := read
        idle := fun _ => rfl
        live := fun held => absurd failed held
        held := fun late => absurd late (by simp [Conn.dial, Conn.begin, State.rank])
        plain := by simp
        early := fun _ held => absurd failed held
        silent := fun _ => silent
        first := fun s head => by cases head
        due := fun polls => by cases polls
        closing := fun state => by cases state }⟩
  · rw [if_neg failed] at read
    refine ⟨_, follows_early read failed ?_ ?_ silent ?_⟩
    · by_cases declared : T.handshakeStep.isSome = true
      · rw [if_pos declared]
        exact .inl ⟨rfl, Option.isSome_iff_ne_none.mp declared⟩
      · rw [if_neg declared]
        exact .inr rfl
    · simp [Conn.dial, Conn.begin, State.rank]
    · intro s head
      cases head

/-! ## The calls -/

/-- A handler is called at its stage, and its answer decides the next one. -/
theorem Handles.staged {c : Conn T P} {stage : Stage} {kind : Protocol.HandlerKind}
    {f : Protocol.Handler P.Session ω} (handles : Handles c kind f) (follows : Follows c stage)
    (status : Protocol.Status) (after : Io) :
    ∃ stage', stage.handle kind status ⟨c.rx, c.tx⟩ = some stage' ∧
      stage'.Due (leaving ((c.state, .handler kind status ⟨c.rx, c.tx⟩ after) :: c.history))
        (dismissed ((c.state, .handler kind status ⟨c.rx, c.tx⟩ after) :: c.history)) := by
  have due := follows.due handles.polls
  have answered : leaving c.history = false → ∀ {kind}, kind ≠ .onShutdown →
      (Stage.answered status).Due
        (leaving ((c.state, .handler kind status ⟨c.rx, c.tx⟩ after) :: c.history))
        (dismissed ((c.state, .handler kind status ⟨c.rx, c.tx⟩ after) :: c.history)) := by
    intro staying kind other
    have undone := dismissed_of_leaving staying
    cases status <;>
      simp [leaving, dismissed, staying, undone, other, Stage.Due, Stage.answered, Stage.serves]
  cases handles with
  | onConnect declared running first =>
      have fresh := follows.first _ first
      rw [fresh] at due
      have staying : leaving c.history = false := by
        cases leaves : leaving c.history
        · rfl
        · cases gone : dismissed c.history <;> simp [Stage.Due, leaves, gone] at due
      exact ⟨_, if_pos fresh, answered staying (by simp)⟩
  | onData running unread staying =>
      have serves : stage.serves = true := by
        simpa [Stage.Due, staying, dismissed_of_leaving staying] using due
      exact ⟨_, if_pos ⟨serves, unread⟩, answered staying (by simp)⟩
  | onShutdown declared closing undone =>
      have leaves := follows.closing closing
      have parting : stage = .parting := by simpa [Stage.Due, leaves, undone] using due
      refine ⟨_, if_pos parting, ?_⟩
      cases status <;> simp [leaving, dismissed, leaves, undone, Stage.Due]

/-- A protocol call that the stage allows. -/
theorem Follows.called {c c' : Conn T P} {stage stage' : Stage} (follows : Follows c stage)
    {act : Act} (history : c'.history = (c.state, act) :: c.history) (state : c'.state = c.state)
    (fd : c'.fd = c.fd) (polls : c.state.polls = true)
    (next : stage.next T.handshakeStep.isSome P.teardown.isSome c.state act = some stage')
    (due : stage'.Due (leaving ((c.state, act) :: c.history)) (dismissed ((c.state, act) :: c.history)))
    (stays : leaving c.history = true → leaving ((c.state, act) :: c.history) = true)
    (other : act ≠ .assign .protocol) : Follows c' stage' := by
  have held : c.fd ≠ -1 := by
    refine follows.held ?_ ?_ <;> revert polls <;> cases c.state <;> simp [State.polls, State.rank]
  refine follows_polling ?_ (fd ▸ held) (state ▸ polls) ?_ ?_ ?_
  · rw [Conn.typestate, history]
    exact Option.bind_eq_some_iff.mpr ⟨stage, follows.read, next⟩
  · rw [history]
    exact due
  · rw [state, history]
    exact fun closing => stays (follows.closing closing)
  · intro s head
    rw [history] at head
    cases head
    exact absurd rfl other

theorem Follows.beaten {c : Conn T P} {stage : Stage} (follows : Follows c stage)
    (running : c.state = .protocol) (attentive : Attentive c) {act : Act}
    (next : stage.next T.handshakeStep.isSome P.teardown.isSome c.state act =
      if stage.serves then some .serving else none)
    (stays : leaving ((c.state, act) :: c.history) = leaving c.history)
    (same : dismissed ((c.state, act) :: c.history) = dismissed c.history)
    (other : act ≠ .assign .protocol) {c' : Conn T P}
    (history : c'.history = (c.state, act) :: c.history) (state : c'.state = c.state)
    (fd : c'.fd = c.fd) : ∃ stage', Follows c' stage' := by
  have polls : c.state.polls = true := by rw [running]; rfl
  have staying := attentive.staying running
  have undone := dismissed_of_leaving staying
  have serves : stage.serves = true := by simpa [Stage.Due, staying, undone] using follows.due polls
  refine ⟨.serving, follows.called history state fd polls (next.trans (if_pos serves)) ?_ ?_ other⟩
  · rw [stays, same, staying, undone]
    rfl
  · rw [stays]
    exact id

theorem Follows.before {c : Conn T P} {stage : Stage} (follows : Follows c stage)
    (early : c.state.rank < 3) (held : c.fd ≠ -1) :
    stage = .shaking ∧ T.handshakeStep ≠ none ∨ stage = .fresh := by
  refine (follows.early early held).imp_left fun shaking => ⟨shaking, fun plain => ?_⟩
  exact follows.plain plain shaking

/-- `protocol` is entered with a session that has not been called. -/
theorem Follows.entered {c : Conn T P} {stage : Stage} (follows : Follows c stage)
    (fresh : stage = .fresh) (held : c.fd ≠ -1) (silent : leaving c.history = false) :
    Follows (c.assign .protocol) stage := by
  refine follows_polling (Option.bind_eq_some_iff.mpr ⟨stage, follows.read, rfl⟩) held rfl ?_ ?_ ?_
  · have undone := dismissed_of_leaving silent
    simp [Conn.assign, Conn.log, leaving, dismissed, silent, undone, Stage.Due, fresh, Stage.serves]
  · intro closing
    cases closing
  · exact fun _ _ => fresh

theorem Follows.handshook {c : Conn T P} {stage : Stage} (follows : Follows c stage)
    (status : Transport.Status) (e : T.Endpoint) (w : ω) (shaking : c.state = .transport) :
    ∃ stage', Follows (c.handshook status e w) stage' := by
  have early : c.state.rank < 3 := by rw [shaking]; decide
  have held : c.fd ≠ -1 := follows.held (by rw [shaking]; decide) (by omega)
  cases status with
  | ok =>
      refine ⟨.fresh, follows_early (Option.bind_eq_some_iff.mpr ⟨stage, follows.read, ?_⟩) held
        (.inr rfl) early (follows.silent early) fun s head => by cases head⟩
      rcases follows.early early held with rfl | rfl <;> rfl
  | _ => exact ⟨stage, follows.logged rfl rfl rfl rfl rfl rfl (by simp)⟩

/-- `stop` in the state `protocol` leaves the session only `on_shutdown`. -/
theorem Follows.stopped {c : Conn T P} {stage : Stage} (follows : Follows c stage) :
    ∃ stage', Follows (c.log (.enter .stop)) stage' := by
  by_cases running : c.state = .protocol
  · have polls : c.state.polls = true := by rw [running]; rfl
    have due := follows.due polls
    refine ⟨if c.state = .protocol ∧ stage.serves then .parting else stage,
      follows.called rfl rfl rfl polls rfl ?_ ?_ (by simp)⟩
    · cases gone : dismissed c.history <;> cases leaves : leaving c.history <;>
        simp_all [Stage.Due, leaving, dismissed, Stage.serves]
    · intro _
      simp [leaving, running]
  · refine ⟨stage, follows.logged rfl rfl rfl ?_ ?_ rfl (by simp)⟩
    · simp [Stage.next, running]
    · simp [leaving, running]

theorem Step.follows {c c' : Conn T P} (step : Step N c c') (cookie : c.cookie ≠ 0) {stage : Stage}
    (follows : Follows c stage) : ∃ stage', Follows c' stage' := by
  have assigned : ∀ s : State, (c.assign s).typestate = some stage := fun s =>
    Option.bind_eq_some_iff.mpr ⟨stage, follows.read, rfl⟩
  have late : ∀ s : State, 4 < s.rank → ∃ stage', Follows (c.assign s) stage' := by
    intro s late
    refine ⟨stage, follows_late (assigned s) follows.idle follows.live follows.plain late ?_⟩
    intro s' head
    cases head
    simp [State.rank] at late
  have rank : c.state = .uninitialized ∨ c.state = .inProgress → c.state.rank < 3 := by
    rintro (fresh | fresh) <;> rw [fresh] <;> decide
  cases step with
  | attach k zero => exact absurd zero cookie
  | restart done idle =>
      refine follows_dialed (c := c.renew) ?_
      rw [← follows.idle idle]
      exact follows.read
  | enter entry =>
      cases entry with
      | stop => exact follows.stopped
      | _ => exact ⟨stage, follows.logged rfl rfl rfl rfl rfl rfl (by simp)⟩
  | dialFailed fresh failed => exact late .error (by decide)
  | dialPending fresh held =>
      have waiting : Follows (c.assign .inProgress) stage :=
        follows_early (assigned _) held (follows.before (rank (.inl fresh)) held)
          (by simp [Conn.assign, State.rank])
          (follows.silent (rank (.inl fresh))) fun s head => by cases head
      exact ⟨stage, waiting.logged rfl rfl rfl rfl rfl rfl (by simp)⟩
  | initFailed w fresh held => exact ⟨.free, follows.notInit w held⟩
  | initHandshake e w fresh held =>
      have made : Follows (c.initialised e w) stage :=
        follows.logged rfl rfl rfl rfl rfl rfl (by simp)
      refine ⟨stage, follows_early (Option.bind_eq_some_iff.mpr ⟨stage, made.read, rfl⟩) held
        (follows.before (rank fresh) held) (by simp [Conn.assign, State.rank])
        (follows.silent (rank fresh)) ?_⟩
      intro s head
      cases head
  | initPlain e w fresh held _ plain =>
      have made : Follows (c.initialised e w) stage :=
        follows.logged rfl rfl rfl rfl rfl rfl (by simp)
      have heard : Follows ((c.initialised e w).subscribe N true false) stage :=
        made.logged rfl rfl rfl rfl rfl rfl (by simp)
      have unshaken : stage = .fresh :=
        (follows.early (rank fresh) held).resolve_left (follows.plain plain)
      exact ⟨stage, heard.entered unshaken held (follows.silent (rank fresh))⟩
  | refused ret err w =>
      have polled : Follows (c.polled ret err w) stage :=
        follows.logged rfl rfl rfl rfl rfl rfl (by simp)
      exact ⟨.free, polled.finished rfl⟩
  | overflow =>
      have logged : Follows (c.log (.overflow c.rx)) stage :=
        follows.logged rfl rfl rfl rfl rfl rfl (by simp)
      exact ⟨.free, logged.finished rfl⟩
  | dropped | fail => exact ⟨.free, follows.finished rfl⟩
  | finish | stop => exact ⟨.free, follows.finished rfl⟩
  | handshake f status e w _ shaking => exact follows.handshook status e w shaking
  | enterProtocol shaking shook =>
      have early : c.state.rank < 3 := by rw [shaking]; decide
      have held : c.fd ≠ -1 := follows.held (by rw [shaking]; decide) (by omega)
      refine ⟨stage, follows.entered ?_ held (follows.silent early)⟩
      refine (follows.early early held).resolve_left fun stillShaking => ?_
      -- a last handshake step that was answered `ok` has left `shaking`
      obtain ⟨h, history⟩ := List.head?_eq_some_iff.mp shook
      have read := follows.read
      rw [Conn.typestate, history] at read
      obtain ⟨before, -, next⟩ := Option.bind_eq_some_iff.mp read
      rw [stillShaking] at next
      by_cases shook' : before = .shaking
      · simp [Stage.next, shook'] at next
      · simp [Stage.next, shook'] at next
  | handler kind f status s io w handles =>
      obtain ⟨stage', next, due⟩ := handles.staged follows status io
      refine ⟨stage', follows.called rfl rfl rfl handles.polls next due ?_ (by simp)⟩
      intro leaves
      simp [leaving, leaves]
  | heartbeat f s tx w declared running answered attentive =>
      exact follows.beaten running attentive rfl rfl rfl (by simp) rfl rfl rfl
  | closeProtocol running word undone =>
      have polls : c.state.polls = true := by rw [running]; rfl
      have held : c.fd ≠ -1 := by
        refine follows.held ?_ ?_ <;> rw [running] <;> decide
      refine ⟨stage, follows_polling (assigned _) held rfl (follows.due polls) (fun _ => word) ?_⟩
      intro s head
      cases head
  | drainProtocol => exact late .drainProtocol (by decide)
  | closeTransport => exact late .closeTransport (by decide)
  | clearRx =>
      exact ⟨stage, follows.read, follows.idle, follows.live, follows.held, follows.plain,
        follows.early, follows.silent, follows.first, follows.due, follows.closing⟩
  | noReturn callee permitted =>
      cases callee with
      | handler kind offered =>
          obtain ⟨rfl, f, handles⟩ := permitted
          obtain ⟨stage', next, due⟩ := handles.staged follows .ok ⟨c.rx, c.tx⟩
          refine ⟨stage', follows.called rfl rfl rfl handles.polls next ?_ id (by simp)⟩
          cases kind <;> simpa [leaving, dismissed] using due
      | heartbeat =>
          exact follows.beaten permitted.1 permitted.2 rfl rfl rfl (by simp) rfl rfl rfl
      | _ => exact ⟨stage, follows.logged rfl rfl rfl rfl rfl rfl (by simp)⟩
  | _ => exact ⟨stage, follows.logged rfl rfl rfl rfl rfl rfl (by simp)⟩

/-- A cookie is set, and the session's calls are in order. -/
structure Following (c : Conn T P) : Prop where
  cookie : c.cookie ≠ 0
  grounded : Grounded c
  stage : ∃ stage, Follows c stage

theorem path_following {c c' : Conn T P} (path : ReflTransGen (Step N) c c') :
    Following c → Following c' := by
  refine path_invariant (R := Step N) (fun c₁ c₂ step following => ?_) path
  obtain ⟨stage, follows⟩ := following.stage
  exact ⟨step.attachedOnce following.cookie, step.grounded following.grounded,
    step.follows following.cookie follows⟩

/-- **The order of the protocol calls.**  In every run that attaches the connection to a
cookie and then makes any calls, every protocol call is made at a stage that allows it;
and once the connection is done or destructed no session is left, so that a declared
`teardown` has been called exactly once for every descriptor it adopted. -/
theorem call_order (fuel : Nat) (k : Nat) (later : List Entry) (host : String) (port : UInt16)
    (tc : T.Config) (pc : P.Config) (w : ω) (cookie : k ≠ 0) :
    let run := (exec N fuel (.attach k :: later)).exec (Conn.make host port tc pc w : Conn T P)
    run.2.typestate.isSome = true ∧
      (run.2.state.terminal = true ∨ run.1 = some () ∧ .destruct ∈ later →
        run.2.typestate = some .free ∧
          (P.teardown.isSome = true → teardowns run.2.history = adoptions run.2.history)) := by
  intro run
  have counted : ∀ c : Conn T P, c.typestate = some .free → P.teardown.isSome = true →
      teardowns c.history = adoptions c.history := by
    intro c free declared
    rw [Conn.typestate, declared] at free
    simpa [Stage.live] using teardowns_eq_adoptions free
  have reached : Reached N _ later run.1 run.2 :=
    exec_attach_reached fuel k later (make_rest host port tc pc w) rfl
  have start : Following ((Conn.make host port tc pc w : Conn T P).attached N k) :=
    ⟨cookie, fun done => (by cases done),
      follows_dialed (c := { (Conn.make host port tc pc w : Conn T P).log (.enter (.attach k)) with
        cookie := k }) rfl⟩
  generalize run = final at reached
  obtain ⟨result, c⟩ := final
  cases reached with
  | alive path rest =>
      obtain ⟨-, grounded, stage, follows⟩ := path_following path start
      refine ⟨by rw [follows.read]; rfl, fun finished => ?_⟩
      rcases finished with done | ⟨returned, member⟩
      · have free : c.typestate = some .free := by rw [follows.read, follows.idle (grounded done)]
        exact ⟨free, counted c free⟩
      · exact absurd member (rest returned).2
  | @destructed c₁ _ path _ torn _ =>
      subst torn
      obtain ⟨-, -, stage, follows⟩ := path_following path start
      have entered : Follows (c₁.log (.enter .destruct)) stage :=
        follows.logged rfl rfl rfl rfl rfl rfl (by simp)
      have free := typestate_teardown (N := N) entered.read entered.idle entered.live
      exact ⟨by rw [free]; rfl, fun _ => ⟨free, counted _ free⟩⟩

/-- A session that declares every handler, and says goodbye when it is asked to. -/
def courteous : Protocol.Layer ω where
  Config := Unit
  Session := Unit
  session _ _ _ := ()
  onConnect := some fun s io w => some (.ok, s, io, w)
  onData s io w := some (.ok, s, io, w)
  onShutdown := some fun s io w => some (.close, s, io, w)
  heartbeat := some fun s tx w => some (s, tx, w)
  teardown := some fun s w => (s, w)

/-- Stopped, restarted, and destructed while the second connect is pending: two
descriptors, and two teardowns. -/
theorem call_order_courteous :
    let run := (exec scripted 9 (.attach 1 :: [.heartbeat, .stop, .restart, .destruct])).exec
      (plainConn courteous () { connects := [⟨0, .other 0⟩, pending] })
    adoptions run.2.history = 2 ∧ teardowns run.2.history = 2 ∧ run.2.typestate = some .free := by
  intro run
  have adopted : adoptions run.2.history = 2 := by decide +kernel
  have returned : run.1 = some () := by decide +kernel
  obtain ⟨-, finished⟩ := call_order (N := scripted) (T := Transport.plain scripted 1) (P := courteous)
    9 1 [.heartbeat, .stop, .restart, .destruct] "host" 80 () ()
    { connects := [⟨0, .other 0⟩, pending] } (by decide)
  obtain ⟨free, counted⟩ := finished (.inr ⟨returned, by decide⟩)
  exact ⟨adopted, (counted rfl).trans adopted, free⟩

end Manet.Reactor
