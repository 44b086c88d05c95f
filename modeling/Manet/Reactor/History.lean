/-
# Manet.Reactor.History — reading a connection's history

What the properties of a connection are stated over, as functions of the recorded
history alone (newest first):

* `interest`: the last `Net::subscribe` for a descriptor since it was adopted;
* `asked`: the answer of the last handshake or shutdown step of the epoch;
* `closing`: whether a handler's `close` is being carried out, and whether a write
  of that branch has already failed to flush;
* `overwritten`, `retreated`: the answers after which the code assigns `_state`
  over an `error` it had entered, or steps back from `close_transport`;
* `severed`: whether the transport has reported the end of the connection;
* `leaving`, `dismissed`, `owed`: how far the session has come in its epoch, and
  whether one of its handlers is due;
* `attached`: whether `attach` has been given a cookie.

`overwrites` and `retreats` are conditions on what the environment answered and on the state the
answer was given in; nothing the connection does afterwards enters into them.
-/
import Manet.Reactor.Connection

namespace Manet.Reactor

open Manet.Flow Manet.Net

set_option autoImplicit false

namespace State

/-- The order in which a connection goes through its states. -/
def rank : State → Nat
  | .uninitialized => 0
  | .inProgress => 1
  | .transport => 2
  | .protocol => 3
  | .closeProtocol => 4
  | .drainProtocol => 5
  | .closeTransport => 6
  | .closed => 7
  | .error => 7

def terminal : State → Bool
  | .closed | .error => true
  | _ => false

/-- The session is being fed. -/
def polls : State → Bool
  | .protocol | .closeProtocol => true
  | _ => false

/-- Bytes are being read. -/
def reads : State → Bool
  | .protocol | .closeProtocol | .drainProtocol => true
  | _ => false

/-- Bytes may be written. -/
def flows : State → Bool
  | .protocol | .closeProtocol | .drainProtocol | .closeTransport => true
  | _ => false

/-- There is an endpoint. -/
def connected : State → Bool
  | .transport | .protocol | .closeProtocol | .drainProtocol | .closeTransport => true
  | _ => false

theorem polls_iff {s : State} : s.polls = true ↔ s = .protocol ∨ s = .closeProtocol := by
  cases s <;> simp [polls]

theorem connected_of_flows {s : State} (flows : s.flows = true) : s.connected = true := by
  cases s <;> simp_all [State.flows, connected]

theorem running_of_connected {s : State} (connected : s.connected = true) : s.terminal = false := by
  cases s <;> simp_all [State.connected, terminal]

theorem flows_of_reads {s : State} (reads : s.reads = true) : s.flows = true := by
  cases s <;> simp_all [State.reads, State.flows]

theorem flows_of_polls {s : State} (polls : s.polls = true) : s.flows = true := by
  cases s <;> simp_all [State.polls, State.flows]

theorem rank_of_flows {s : State} (flows : s.flows = true) : 2 < s.rank := by
  cases s <;> simp_all [State.flows, rank]

theorem rank_of_polls {s : State} (polls : s.polls = true) : 2 < s.rank ∧ s.rank ≤ 4 := by
  cases s <;> simp_all [State.polls, rank]

theorem rank_of_terminal {s : State} (terminal : s.terminal = true) : s.rank = 7 := by
  cases s <;> simp_all [State.terminal, rank]

end State

/-! ## Interest -/

def interest (fd : Int) : History → Option (Bool × Bool)
  | [] => none
  | (_, .net (.subscribe fd' r w)) :: h => if fd' = fd then some (r, w) else interest fd h
  | (_, .adopt _) :: _ => none
  | _ :: h => interest fd h

def asked : History → Option Transport.Status
  | [] => none
  | (_, .handshakeStep status) :: _ => some status
  | (_, .shutdownStep status) :: _ => some status
  | (_, .begin) :: _ => none
  | _ :: h => asked h

/-! ## Closing on a handler's word -/

/-- The write took something and asked for nothing. -/
def progress (status : Transport.Status) (before after : Buffer TX_CAP) : Bool :=
  status = .ok ∧ after.rsize ≠ before.rsize

/-- `some b`: the latest handler returned `close` and only its output has been
written since; `b` says whether one of those writes made no progress. -/
def closing : History → Option Bool
  | [] => none
  | (_, .handler kind status _ _) :: _ =>
      if kind ≠ .onShutdown ∧ status = .close then some false else none
  | (_, .write status before after) :: h =>
      if progress status before after then closing h else (closing h).map fun _ => true
  | (_, .net (.subscribe _ _ _)) :: h => closing h
  | (s, .assign s') :: h => if s = .protocol ∧ s' = .closeTransport then closing h else none
  | _ => none

/-- An answer that takes the connection to `error` inside a caller that assigns
`_state` afterwards: a failed write of a closing handler's output, a failed read
or an overflow while draining. -/
def overwrites (s : State) (act : Act) (h : History) : Bool :=
  match act with
  | .write .error _ _ => (closing h).isSome
  | .read .error _ _ => s = .drainProtocol
  | .overflow _ => s = .drainProtocol
  | _ => false

/-- A second write of a closing handler's output that does not flush, where the
first or the second one was answered `close`. -/
def retreats (s : State) (act : Act) (h : History) : Bool :=
  match act with
  | .write status before after =>
      closing h = some true ∧ progress status before after = false ∧
        (s = .closeTransport ∨ status = .close)
  | _ => false

/-- Some entry of the history is such an event. -/
def occurs (event : State → Act → History → Bool) : History → Bool
  | [] => false
  | (s, act) :: h => event s act h || occurs event h

abbrev overwritten (h : History) : Bool := occurs overwrites h

abbrev retreated (h : History) : Bool := occurs retreats h

/-- The transport reports `close` or an error. -/
def cuts (_ : State) (act : Act) (_ : History) : Bool :=
  match act with
  | .read status _ _ => status = .close || status = .error
  | .write status _ _ => status = .close || status = .error
  | _ => false

abbrev severed (h : History) : Bool := occurs cuts h

/-! ## The current epoch -/

/-- How often the connection has dialed. -/
def epoch : History → Nat
  | [] => 0
  | (_, .begin) :: h => epoch h + 1
  | _ :: h => epoch h

/-- Some entry since the last dial is such an event. -/
def lately (event : State → Act → History → Bool) : History → Bool
  | [] => false
  | (_, .begin) :: _ => false
  | (s, act) :: h => event s act h || lately event h

section Lately

variable {event : State → Act → History → Bool} {h h' : History}

theorem lately_cons {s : State} {act : Act} (other : act ≠ .begin) :
    lately event ((s, act) :: h) = (event s act h || lately event h) := by
  cases act with
  | begin => exact absurd rfl other
  | _ => rfl

theorem occurs_of_lately (past : lately event h = true) : occurs event h = true := by
  induction h with
  | nil => cases past
  | cons entry h ih =>
      obtain ⟨s, act⟩ := entry
      by_cases dials : act = .begin
      · subst dials
        cases past
      · rw [lately_cons dials, Bool.or_eq_true] at past
        rw [occurs, Bool.or_eq_true]
        exact past.imp_right ih

theorem epoch_of_suffix (grown : h <:+ h') : epoch h ≤ epoch h' := by
  obtain ⟨later, rfl⟩ := grown
  induction later with
  | nil => exact Nat.le_refl _
  | cons entry later ih =>
      obtain ⟨s, act⟩ := entry
      cases act with
      | begin => exact Nat.le_succ_of_le ih
      | _ => exact ih

/-- What happened in this epoch is not forgotten before the next. -/
theorem lately_of_suffix (grown : h <:+ h') (same : epoch h' = epoch h)
    (past : lately event h = true) : lately event h' = true := by
  obtain ⟨later, rfl⟩ := grown
  induction later with
  | nil => exact past
  | cons entry later ih =>
      obtain ⟨s, act⟩ := entry
      by_cases dials : act = .begin
      · subst dials
        have older := epoch_of_suffix (List.suffix_append later h)
        have next : epoch (later ++ h) + 1 = epoch h := same
        omega
      · have still : epoch (later ++ h) = epoch h := by
          cases act with
          | begin => exact absurd rfl dials
          | _ => exact same
        rw [List.cons_append, lately_cons dials, ih still, Bool.or_true]

end Lately

section Occurs

variable {event event' : State → Act → History → Bool} {h h' : History}

theorem occurs_of_suffix (grown : h <:+ h') (past : occurs event h = true) :
    occurs event h' = true := by
  obtain ⟨later, rfl⟩ := grown
  induction later with
  | nil => exact past
  | cons entry later ih => simp [occurs, ih]

theorem never_of_suffix (grown : h <:+ h') (never : occurs event h' = false) :
    occurs event h = false := by
  cases past : occurs event h
  · rfl
  · rw [occurs_of_suffix grown past] at never
    cases never

/-- A history without the weaker events has none of the stronger. -/
theorem never_mono (implies : ∀ s act h, event s act h = true → event' s act h = true)
    (never : occurs event' h = false) : occurs event h = false := by
  induction h with
  | nil => rfl
  | cons entry h ih =>
      obtain ⟨s, act⟩ := entry
      simp only [occurs, Bool.or_eq_false_iff] at never ⊢
      refine ⟨?_, ih never.2⟩
      cases now : event s act h
      · rfl
      · rw [implies s act h now] at never
        cases never.1

/-- An entry recorded in such a history is not the event. -/
theorem not_event_of_never {s : State} {act : Act} (grown : (s, act) :: h <:+ h')
    (never : occurs event h' = false) : event s act h = false := by
  have older := never_of_suffix grown never
  simp only [occurs, Bool.or_eq_false_iff] at older
  exact older.1

end Occurs

/-- Every recorded act met `p`, with what was recorded before it. -/
def Always (p : State → Act → History → Prop) (h : History) : Prop :=
  ∀ s act older, (s, act) :: older <:+ h → p s act older

section Always

variable {p : State → Act → History → Prop} {s : State} {act : Act} {h : History}

theorem always_nil : Always p [] := fun _ _ _ none => by cases List.suffix_nil.mp none

theorem always_cons : Always p ((s, act) :: h) ↔ p s act h ∧ Always p h := by
  refine ⟨fun all => ⟨all s act h List.suffix_rfl, fun s' act' older suffix => ?_⟩, ?_⟩
  · exact all s' act' older (suffix.trans (List.suffix_cons _ _))
  · rintro ⟨last, all⟩ s' act' older suffix
    rcases List.suffix_cons_iff.mp suffix with same | earlier
    · cases same
      exact last
    · exact all s' act' older earlier

theorem always_skip (free : p s act h) : Always p ((s, act) :: h) = Always p h :=
  propext ⟨fun all => (always_cons.mp all).2, fun all => always_cons.mpr ⟨free, all⟩⟩

end Always

theorem head_suffix {entry : State × Act} {h : History} (head : h.head? = some entry) :
    ∃ older, entry :: older <:+ h := by
  cases h with
  | nil => cases head
  | cons first older =>
      cases head
      exact ⟨older, List.suffix_rfl⟩

/-! ## The session's turn -/

/-- In this epoch a handler has answered something other than `ok`, or `stop` was
called while the session was being fed. -/
def leaving : History → Bool
  | [] => false
  | (_, .begin) :: _ => false
  | (_, .handler _ status _ _) :: h => status ≠ .ok || leaving h
  | (s, .enter .stop) :: h => s = .protocol || leaving h
  | _ :: h => leaving h

/-- In this epoch the session has nothing more to say: `on_shutdown` has answered
`close`, or a handler an error. -/
def dismissed : History → Bool
  | [] => false
  | (_, .begin) :: _ => false
  | (_, .handler kind status _ _) :: h =>
      status = .error || kind = .onShutdown && status = .close || dismissed h
  | _ :: h => dismissed h

/-- Whether the session is due to be called while it is fed: to greet, if it `greets`,
or on bytes it has not seen or has just made progress on. -/
def owed (greets : Bool) : History → Bool
  | [] => false
  | (_, .begin) :: _ => false
  | (_, .assign .protocol) :: _ => greets
  | (_, .read _ before after) :: h =>
      if after.rsize = before.rsize then owed greets h else after.rsize ≠ 0
  | (_, .handler kind _ before after) :: _ =>
      kind = .onData && after.rx.rsize < before.rx.rsize && after.rx.rsize ≠ 0
  | _ :: h => owed greets h

/-- A reading that passes over the attempts to write, and over a connection's end. -/
structure Skips {α : Type} (f : History → α) : Prop where
  net : ∀ s call h, f ((s, .net call) :: h) = f h
  write : ∀ s status before after h, f ((s, .write status before after) :: h) = f h
  assign : ∀ s s' h, s' ≠ .protocol → f ((s, .assign s') :: h) = f h
  teardown : ∀ s h, f ((s, .teardown) :: h) = f h
  destroy : ∀ s h, f ((s, .destroy) :: h) = f h

theorem asked_skips : Skips asked :=
  ⟨fun _ _ _ => rfl, fun _ _ _ _ _ => rfl, fun _ _ _ _ => rfl, fun _ _ => rfl, fun _ _ => rfl⟩

theorem leaving_skips : Skips leaving :=
  ⟨fun _ _ _ => rfl, fun _ _ _ _ _ => rfl, fun _ _ _ _ => rfl, fun _ _ => rfl, fun _ _ => rfl⟩

theorem dismissed_skips : Skips dismissed :=
  ⟨fun _ _ _ => rfl, fun _ _ _ _ _ => rfl, fun _ _ _ _ => rfl, fun _ _ => rfl, fun _ _ => rfl⟩

theorem owed_skips (greets : Bool) : Skips (owed greets) where
  net _ _ _ := rfl
  write _ _ _ _ _ := rfl
  assign _ s' _ other := by
    cases s' with
    | protocol => exact absurd rfl other
    | _ => rfl
  teardown _ _ := rfl
  destroy _ _ := rfl

/-- The decision to leave stands until the next epoch. -/
theorem staying_older {s : State} {act : Act} {h : History} (goesOn : act ≠ .begin)
    (staying : leaving ((s, act) :: h) = false) : leaving h = false := by
  cases act with
  | begin => exact absurd rfl goesOn
  | handler kind status before after =>
      simp only [leaving, Bool.or_eq_false_iff] at staying
      exact staying.2
  | enter entry =>
      cases entry with
      | stop =>
          simp only [leaving, Bool.or_eq_false_iff] at staying
          exact staying.2
      | _ => exact staying
  | _ => exact staying

theorem dismissed_of_leaving {h : History} (open' : leaving h = false) : dismissed h = false := by
  induction h with
  | nil => rfl
  | cons entry h ih =>
      obtain ⟨s, act⟩ := entry
      cases act with
      | begin => rfl
      | handler kind status before after =>
          have older := ih (staying_older (by simp) open')
          simp only [leaving, Bool.or_eq_false_iff, decide_eq_false_iff_not, not_not] at open'
          simp [dismissed, open'.1, older]
      | _ => exact ih (staying_older (by simp) open')

/-- A cookie other than `nullptr` has been given. -/
def attached : History → Bool
  | [] => false
  | (_, .enter (.attach k)) :: h => k ≠ 0 || attached h
  | _ :: h => attached h

/-! ## What teardown leaves -/

section Teardown

variable {ω : Type} (N : Backend ω) {T : Transport.Layer ω} {P : Protocol.Layer ω}

namespace Conn

theorem done_eq_terminal (c : Conn T P) : c.done = c.state.terminal := by
  unfold done
  rcases c.state <;> simp [State.terminal]

@[simp] theorem sessionTeardown_state (c : Conn T P) : c.sessionTeardown.state = c.state := by
  unfold sessionTeardown; split <;> rfl

@[simp] theorem sessionTeardown_fd (c : Conn T P) : c.sessionTeardown.fd = c.fd := by
  unfold sessionTeardown; split <;> rfl

@[simp] theorem sessionTeardown_cookie (c : Conn T P) : c.sessionTeardown.cookie = c.cookie := by
  unfold sessionTeardown; split <;> rfl

@[simp] theorem sessionTeardown_rx (c : Conn T P) : c.sessionTeardown.rx = c.rx := by
  unfold sessionTeardown; split <;> rfl

@[simp] theorem sessionTeardown_tx (c : Conn T P) : c.sessionTeardown.tx = c.tx := by
  unfold sessionTeardown; split <;> rfl

theorem sessionTeardown_history (c : Conn T P) :
    c.sessionTeardown.history = (c.state, .teardown) :: c.history ∨
      c.sessionTeardown.history = c.history := by
  unfold sessionTeardown; split
  · exact .inr rfl
  · exact .inl rfl

@[simp] theorem teardown_state (c : Conn T P) : (c.teardown N).state = c.state := by
  unfold teardown; split
  · simp [release, endpointDestroy, log]
  · rfl

@[simp] theorem teardown_fd (c : Conn T P) : (c.teardown N).fd = -1 := by
  unfold teardown; split
  · rfl
  · rename_i idle; simpa using idle

@[simp] theorem teardown_cookie (c : Conn T P) : (c.teardown N).cookie = c.cookie := by
  unfold teardown; split
  · simp [release, endpointDestroy, log]
  · rfl

@[simp] theorem teardown_rx (c : Conn T P) : (c.teardown N).rx = c.rx := by
  unfold teardown; split
  · simp [release, endpointDestroy, log]
  · rfl

@[simp] theorem teardown_tx (c : Conn T P) : (c.teardown N).tx = c.tx := by
  unfold teardown; split
  · simp [release, endpointDestroy, log]
  · rfl

theorem teardown_idle {c : Conn T P} (idle : c.fd = -1) : c.teardown N = c := by
  simp [teardown, idle]

theorem teardown_history {c : Conn T P} (held : c.fd ≠ -1) :
    (c.teardown N).history =
      (c.state, .net (.close c.fd)) :: (c.state, .net (.clear c.fd)) :: (c.state, .destroy) ::
        c.sessionTeardown.history := by
  simp [teardown, held, release, endpointDestroy, log]

theorem teardown_suffix (c : Conn T P) : c.history <:+ (c.teardown N).history := by
  by_cases held : c.fd = -1
  · simp [teardown_idle N held]
  · rw [teardown_history N held]
    rcases c.sessionTeardown_history with h | h <;> rw [h]
    · exact ⟨[_, _, _, _], rfl⟩
    · exact ⟨[_, _, _], rfl⟩

theorem destruct_suffix (c : Conn T P) :
    c.history <:+ ((c.log (.enter .destruct)).teardown N).history := by
  refine List.IsSuffix.trans ?_ (teardown_suffix N (c.log (.enter .destruct)))
  exact List.suffix_cons _ _

@[simp] theorem initFailed_state (c : Conn T P) (w : ω) : (c.initFailed N w).state = .error := by
  simp only [initFailed]; split
  · simp [release, log, assign]
  · rfl

@[simp] theorem initFailed_fd (c : Conn T P) (w : ω) : (c.initFailed N w).fd = -1 := by
  simp only [initFailed]; split
  · rfl
  · rename_i idle; simpa using idle

@[simp] theorem initFailed_cookie (c : Conn T P) (w : ω) :
    (c.initFailed N w).cookie = c.cookie := by
  simp only [initFailed]; split
  · simp [release, log, assign, notInitialised]
  · rfl

@[simp] theorem initFailed_rx (c : Conn T P) (w : ω) : (c.initFailed N w).rx = c.rx := by
  simp only [initFailed]; split
  · simp [release, log, assign, notInitialised]
  · rfl

@[simp] theorem initFailed_tx (c : Conn T P) (w : ω) : (c.initFailed N w).tx = c.tx := by
  simp only [initFailed]; split
  · simp [release, log, assign, notInitialised]
  · rfl

theorem initFailed_history {c : Conn T P} (w : ω) (held : c.fd ≠ -1) :
    (c.initFailed N w).history =
      (.error, .net (.close c.fd)) :: (.error, .net (.clear c.fd)) ::
        ((c.notInitialised w).assign .error).sessionTeardown.history := by
  simp only [initFailed]
  rw [if_pos (by simpa [assign, notInitialised, log] using held)]
  simp [release, assign, notInitialised, log]

theorem initFailed_suffix {c : Conn T P} (w : ω) (held : c.fd ≠ -1) :
    c.history <:+ (c.initFailed N w).history := by
  rw [initFailed_history N w held]
  rcases ((c.notInitialised w).assign .error).sessionTeardown_history with h | h
    <;> rw [h]
  · exact ⟨[_, _, _, _, _], rfl⟩
  · exact ⟨[_, _, _, _], rfl⟩

theorem enterError_state (c : Conn T P) : (c.enterError N).state = .error := by
  simp [enterError, assign]

theorem enterClosed_state (c : Conn T P) : (c.enterClosed N).state = .closed := by
  simp [enterClosed, assign]

/-- A reading that passes over a session's teardown reads the same after it. -/
theorem sessionTeardown_unread {α : Type} {f : History → α}
    (skip : ∀ s h, f ((s, .teardown) :: h) = f h) (c : Conn T P) :
    f c.sessionTeardown.history = f c.history := by
  rcases c.sessionTeardown_history with h | h
  · rw [h, skip]
  · rw [h]

/-- A reading that passes over the calls of a dial reads the same after it. -/
theorem dial_unread {α : Type} {f : History → α} (net : ∀ s call h, f ((s, .net call) :: h) = f h)
    (adopt : ∀ s fd h, f ((s, .adopt fd) :: h) = f h) (c : Conn T P) :
    f (c.dial N).2.history = f c.history := by
  have skip : ∀ calls : List NetCall,
      f (calls.map (fun call => (c.state, Act.net call)) ++ c.history) = f c.history := by
    intro calls
    induction calls with
    | nil => rfl
    | cons call calls ih => rw [List.map_cons, List.cons_append, net, ih]
  exact (adopt _ _ _).trans (skip _)

theorem teardown_unread {α : Type} {f : History → α}
    (session : ∀ s h, f ((s, .teardown) :: h) = f h) (destroy : ∀ s h, f ((s, .destroy) :: h) = f h)
    (net : ∀ s call h, f ((s, .net call) :: h) = f h) (c : Conn T P) :
    f (c.teardown N).history = f c.history := by
  by_cases held : c.fd = -1
  · rw [teardown_idle N held]
  · rw [teardown_history N held, net, net, destroy]
    exact sessionTeardown_unread session c

theorem initFailed_unread {α : Type} {f : History → α}
    (session : ∀ s h, f ((s, .teardown) :: h) = f h)
    (net : ∀ s call h, f ((s, .net call) :: h) = f h) {c : Conn T P} (w : ω) (held : c.fd ≠ -1) :
    f (c.initFailed N w).history = f ((c.notInitialised w).assign .error).history := by
  rw [initFailed_history N w held, net, net]
  exact sessionTeardown_unread session _

theorem enterError_unread {α : Type} {f : History → α} (skips : Skips f) (c : Conn T P) :
    f (c.enterError N).history = f c.history :=
  (teardown_unread N skips.teardown skips.destroy skips.net (c.assign .error)).trans
    (skips.assign c.state .error c.history (by simp))

end Conn

end Teardown

end Manet.Reactor
