/-
# Manet.Reactor.Ownership — one descriptor, closed once

`custody` follows the open descriptor of a connection through its history, with the
automaton of `Manet.Net.Dial`: a second descriptor opened while one is open, a close
of what is not open, or a close of an adopted descriptor that is still registered is
a breach.

There is none in any run that begins with `attach` on a cookie (`socket_ownership`):
between calls the connection's `_fd` is the one open descriptor, and the destructor
leaves none.  In numbers, every descriptor has been closed as often as `Net::socket`
returned it.
-/
import Manet.Reactor.Lifecycle

namespace Manet.Reactor

open Manet.Flow Manet.Net Relation

set_option autoImplicit false

/-- `_fd` takes the dialed descriptor. -/
def adoption (fd : Int) : Custody → Option Custody
  | .dialed fd' => if fd = fd' then some (.adopted fd) else none
  | .free => if fd = -1 then some .free else none
  | _ => none

/-- Who holds the open descriptor; `none` after a breach. -/
def custody : History → Option Custody
  | [] => some .free
  | (_, .net call) :: h => (custody h).bind (·.after call)
  | (_, .adopt fd) :: h => (custody h).bind (adoption fd)
  | _ :: h => custody h

/-- How often `Net::socket` returned the descriptor. -/
def opens (fd : Int) : History → Nat
  | [] => 0
  | (_, .net call) :: h => opens fd h + call.opens fd
  | _ :: h => opens fd h

/-- How often it was passed to `Net::close`. -/
def closes (fd : Int) : History → Nat
  | [] => 0
  | (_, .net call) :: h => closes fd h + call.closes fd
  | _ :: h => closes fd h

/-- What a connection with `_fd` has in its custody between two calls. -/
def custodyOf (fd : Int) : Custody := if fd = -1 then .free else .adopted fd

/-- Without a breach, what was opened has been closed, or is still held. -/
theorem opens_eq_closes {h : History} {held : Custody} (kept : custody h = some held) {fd : Int}
    (proper : 0 ≤ fd) : opens fd h = held.holds fd + closes fd h := by
  induction h generalizing held with
  | nil =>
      cases kept
      rfl
  | cons entry h ih =>
      obtain ⟨s, act⟩ := entry
      cases act with
      | net call =>
          obtain ⟨before, kept', after⟩ := Option.bind_eq_some_iff.mp kept
          have count := Custody.after_count after proper
          have older := ih kept'
          simp only [opens, closes]
          omega
      | adopt fd' =>
          obtain ⟨before, kept', adopted⟩ := Option.bind_eq_some_iff.mp kept
          have same : before.holds fd = held.holds fd := by
            cases before <;> grind [adoption, Custody.holds]
          exact (ih kept').trans (by rw [same]; rfl)
      | _ => exact ih kept

/-! ## What a connection holds -/

theorem custody_calls (calls : List NetCall) (s : State) (h : History) :
    custody (calls.map (fun call => (s, Act.net call)) ++ h) =
      (custody h).bind fun held => held.afterAll calls := by
  induction calls with
  | nil =>
      rw [List.map_nil, List.nil_append]
      cases custody h <;> rfl
  | cons call older ih =>
      simp only [List.map_cons, List.cons_append, custody, ih, Custody.afterAll]
      cases custody h <;> rfl

variable {ω : Type} {N : Backend ω} {T : Transport.Layer ω} {P : Protocol.Layer ω}

/-- A dial by a connection that holds nothing leaves it holding the dialed descriptor. -/
theorem custody_dial {c : Conn T P} (free : custody c.history = some .free) :
    custody (c.dial N).2.history = some (custodyOf (c.dial N).2.fd) := by
  have account := dial_custody N c.host c.port c.world
  revert account
  rcases dialed : Net.dial N c.host c.port c.world with ⟨result, w, calls⟩
  rintro ⟨made, -⟩
  simp only [Conn.dial, dialed, List.cons_append, custody, custody_calls, free, Option.bind_some, made]
  by_cases failed : result.fd = -1
  · simp [DialResult.custody, adoption, custodyOf, failed]
  · simp [DialResult.custody, adoption, custodyOf, failed]

theorem custody_sessionTeardown (c : Conn T P) :
    custody c.sessionTeardown.history = custody c.history :=
  Conn.sessionTeardown_unread (fun _ _ => rfl) c

/-- Teardown deregisters and closes what is held. -/
theorem custody_teardown {c : Conn T P} (kept : custody c.history = some (custodyOf c.fd)) :
    custody (c.teardown N).history = some .free := by
  by_cases held : c.fd = -1
  · rw [Conn.teardown_idle N held, kept]
    simp [custodyOf, held]
  · rw [Conn.teardown_history N held]
    simp [custody, custody_sessionTeardown, kept, custodyOf, held, Custody.after]

/-- `_fd` is what the connection holds, and it will not be attached again. -/
structure Holding (c : Conn T P) : Prop where
  kept : custody c.history = some (custodyOf c.fd)
  cookie : c.cookie ≠ 0

theorem Holding.torn {c : Conn T P} (holding : Holding c) : Holding (c.teardown N) :=
  ⟨by rw [custody_teardown holding.kept, Conn.teardown_fd]; rfl,
    by rw [Conn.teardown_cookie]; exact holding.cookie⟩

theorem Step.holding {c c' : Conn T P} (step : Step N c c') (holding : Holding c) :
    Holding c' := by
  obtain ⟨kept, cookie⟩ := holding
  cases step with
  | attach k zero => exact absurd zero cookie
  | restart done idle =>
      refine ⟨custody_dial ?_, cookie⟩
      show custody c.history = some .free
      rw [kept, idle]
      rfl
  | initFailed w _ held =>
      refine ⟨?_, by rw [Conn.initFailed_cookie]; exact cookie⟩
      rw [Conn.initFailed_history N w held, Conn.initFailed_fd]
      simp [custody, custody_sessionTeardown, Conn.assign, Conn.notInitialised, Conn.log, kept,
        custodyOf, held, Custody.after]
  | dialPending | subscribe | polled =>
      refine ⟨?_, cookie⟩
      simp [Conn.subscribe, Conn.assign, Conn.polled, Conn.log, custody, kept, Custody.after]
  | initPlain =>
      refine ⟨?_, cookie⟩
      simp [Conn.subscribe, Conn.assign, Conn.initialised, Conn.log, custody, kept, Custody.after]
  | refused ret err w =>
      refine Holding.torn ⟨?_, cookie⟩
      simp [Conn.assign, Conn.polled, Conn.log, custody, kept, Custody.after]
  | overflow => exact Holding.torn ⟨kept, cookie⟩
  | dropped | fail | finish | stop => exact Holding.torn ⟨kept, cookie⟩
  | _ => exact ⟨kept, cookie⟩

theorem path_holding {c c' : Conn T P} (path : ReflTransGen (Step N) c c') :
    Holding c → Holding c' :=
  path_invariant (R := Step N) (fun _ _ step => step.holding) path

/-- **Socket ownership.**  In every run that attaches the connection to a cookie and then
makes any calls, there is no breach of custody; between calls the open descriptor is
`_fd`, and there is none if `_fd` is `-1`; after the destructor all are closed. -/
theorem socket_ownership (fuel : Nat) (k : Nat) (later : List Entry) (host : String)
    (port : UInt16) (tc : T.Config) (pc : P.Config) (w : ω) (cookie : k ≠ 0) :
    let run := (exec N fuel (.attach k :: later)).exec (Conn.make host port tc pc w : Conn T P)
    custody run.2.history = some (custodyOf run.2.fd) ∧
      (run.1 = some () → .destruct ∈ later →
        run.2.fd = -1 ∧ ∀ fd, 0 ≤ fd → opens fd run.2.history = closes fd run.2.history) := by
  intro run
  have reached : Reached N _ later run.1 run.2 :=
    exec_attach_reached fuel k later (make_rest host port tc pc w) rfl
  have start : Holding ((Conn.make host port tc pc w : Conn T P).attached N k) :=
    ⟨custody_dial rfl, cookie⟩
  generalize run = final at reached
  obtain ⟨result, c⟩ := final
  cases reached with
  | alive path rest =>
      exact ⟨(path_holding path start).kept, fun returned member => absurd member (rest returned).2⟩
  | @destructed c₁ _ path rest torn _ =>
      subst torn
      have holding : Holding (c₁.log (.enter .destruct)) :=
        ⟨(path_holding path start).kept, (path_holding path start).cookie⟩
      have torn := holding.torn (N := N)
      refine ⟨torn.kept, fun _ _ => ⟨Conn.teardown_fd N _, fun fd proper => ?_⟩⟩
      have count := opens_eq_closes (custody_teardown (N := N) holding.kept) proper
      simpa [Custody.holds] using count

/-- A connect that fails at the first address and is pending at the second; the
connection is stopped, restarted and destructed. -/
theorem socket_ownership_restarted :
    let run := (exec scripted 9 (.attach 1 :: [.stop, .restart, .destruct])).exec
      (plainConn mute () { addrs := some [⟨2, 1, 6, []⟩, ⟨2, 1, 6, []⟩]
                           connects := [⟨-1, .econnrefused⟩, pending] })
    run.1 = some () ∧ ∀ fd, 0 ≤ fd → opens fd run.2.history = closes fd run.2.history := by
  intro run
  have returned : run.1 = some () := by decide +kernel
  have owned := socket_ownership (N := scripted) (T := Transport.plain scripted 1) (P := mute) 9 1
    [.stop, .restart, .destruct] "host" 80 () ()
    { addrs := some [⟨2, 1, 6, []⟩, ⟨2, 1, 6, []⟩], connects := [⟨-1, .econnrefused⟩, pending] }
    (by decide)
  exact ⟨returned, (owned.2 returned (by decide)).2⟩

end Manet.Reactor
