/-
# Manet.Reactor.Registration — what the backend holds is what the connections asked for

The connections of a reactor share one backend and do not know of each other.  Over any backend
that keeps a table (`Manet.Net.Registers`), in every state of every run of a reactor, the table
is the one the run began with, with one line added for each connection that holds a descriptor:
its last subscription, under its own cookie (`Mirrors`).  So no descriptor is shared, none is
watched that nobody holds, and what a connection waits for between two calls is what the backend
reports to it.

One step of one connection changes the table at its own descriptor only (`Local`), and keeps its
own line right (`Enrolled`); that is the whole proof, the rest puts the connections together.
-/
import Manet.Net.ScriptedLinux
import Manet.Reactor.Interest
import Manet.Reactor.Worlds

namespace Manet.Net

set_option autoImplicit false

/-- A started backend keeps the same table from `w` to `w'`. -/
def Unmoved {ω : Type} (ν : ω → Table) (w w' : ω) : Prop := (ν w).up → ν w' = ν w

instance {ω : Type} (ν : ω → Table) : IsPreorder ω (Unmoved ν) where
  refl _ _ := rfl
  trans _ _ _ first second up := by
    have same := first up
    exact (second (same ▸ up)).trans same

end Manet.Net

namespace Manet.Reactor

open Manet.Flow Manet.Net Relation

set_option autoImplicit false

/-! ## One connection -/

/-- From `t` to `t'` nothing has changed but at `fd`, which was given up, and `fd'`, which is new,
unless they are one. -/
structure Local (t t' : Table) (fd fd' : Int) : Prop where
  up : t.up → t'.up
  reserved : t'.reserved = t.reserved
  elsewhere : ∀ d, d ≠ fd → d ≠ fd' → (d ∈ t'.opened ↔ d ∈ t.opened) ∧ t'.watch d = t.watch d
  fresh : fd' = fd ∨ fd' = -1 ∨ fd' ∉ t.opened
  gone : fd' = fd ∨ fd ∉ t'.opened

theorem Local.refl (t : Table) (fd : Int) : Local t t fd fd :=
  ⟨id, rfl, fun _ _ _ => ⟨.rfl, rfl⟩, .inl rfl, .inl rfl⟩

theorem local_watching {t : Table} {fd : Int} {x : Watch} (member : fd ∈ t.opened) :
    Local t (t.watching fd x member) fd fd :=
  ⟨id, rfl, fun _ other _ => ⟨.rfl, Function.update_of_ne other _ _⟩, .inl rfl, .inl rfl⟩

theorem local_closing {t : Table} {fd : Int} (free : fd ∉ t.reserved) :
    Local t (t.closing fd free) fd (-1) where
  up := id
  reserved := rfl
  elsewhere _ other _ :=
    ⟨⟨fun member => member.1, fun member => ⟨member, other⟩⟩, Function.update_of_ne other _ _⟩
  fresh := .inr (.inl rfl)
  gone := .inr fun member => member.2 rfl

theorem local_dialed {t t' : Table} {fd : Int} (dialed : Dialed t t' fd) : Local t t' (-1) fd := by
  rcases dialed with ⟨rfl, rfl⟩ | ⟨proper, fresh, rfl⟩
  · exact .refl _ _
  · refine ⟨id, rfl, fun d _ other => ⟨?_, rfl⟩, .inr (.inr fresh), .inr ?_⟩
    swap
    · exact Table.idle_not_mem _
    exact Set.mem_insert_iff.trans (or_iff_right other)

section Connection

variable {ω : Type} {N : Backend ω} {O : Prop} {T : Transport.Layer ω} {P : Protocol.Layer ω}
variable {address : Nat → UInt64} {ν : ω → Table}

/-- The table has the descriptor of a connection open, and its last subscription. -/
structure Enrolled (address : Nat → UInt64) (t : Table) (c : Conn T P) : Prop where
  held : c.fd ≠ -1 → c.fd ∈ t.opened ∧ c.fd ∉ t.reserved
  unheard : c.fd ≠ -1 → interest c.fd c.history = none → t.watch c.fd = Watch.none
  heard : c.fd ≠ -1 → ∀ r w, interest c.fd c.history = some (r, w) → r = true ∨ w = true →
    (t.watch c.fd).Hears (address c.cookie) r w
  own : c.fd ≠ -1 → (t.watch c.fd).Only (address c.cookie)

/-- Without a descriptor there is nothing to hold. -/
theorem enrolled_idle {t : Table} {c : Conn T P} (idle : c.fd = -1) : Enrolled address t c :=
  ⟨fun held => absurd idle held, fun held => absurd idle held, fun held => absurd idle held,
    fun held => absurd idle held⟩

/-- What a connection has become, and its table. -/
structure Placed (address : Nat → UInt64) (ν : ω → Table) (c c' : Conn T P) : Prop where
  enrolled : Enrolled address (ν c'.world) c'
  moved : Local (ν c.world) (ν c'.world) c.fd c'.fd

/-- A step that neither touches the table nor subscribes. -/
theorem Enrolled.placed {c c' : Conn T P} (enrolled : Enrolled address (ν c.world) c)
    (table : ν c'.world = ν c.world) (fd : c'.fd = c.fd) (cookie : c'.cookie = c.cookie)
    (same : interest c.fd c'.history = interest c.fd c.history) : Placed address ν c c' where
  enrolled := by
    refine ⟨?_, ?_, ?_, ?_⟩
    · rw [fd, table]
      exact enrolled.held
    · rw [fd, table, same]
      exact enrolled.unheard
    · rw [fd, table, same, cookie]
      exact enrolled.heard
    · rw [fd, table, cookie]
      exact enrolled.own
  moved := by
    rw [table, fd]
    exact .refl _ _

/-- A step after one that changed neither table nor descriptor. -/
theorem Placed.from {c c₁ c' : Conn T P} (placed : Placed address ν c₁ c')
    (table : ν c₁.world = ν c.world) (fd : c₁.fd = c.fd) : Placed address ν c c' where
  enrolled := placed.enrolled
  moved := by
    have moved := placed.moved
    rwa [table, fd] at moved

theorem enrolled_subscribe (registers : Registers N address ν) {c : Conn T P}
    (up : (ν c.world).up) (enrolled : Enrolled address (ν c.world) c) (r w : Bool) :
    Placed address ν c (c.subscribe N r w) := by
  have last : interest c.fd (c.subscribe N r w).history = some (r, w) := if_pos rfl
  by_cases idle : c.fd = -1
  · have absent : c.fd ∉ (ν c.world).opened := idle ▸ Table.idle_not_mem _
    have table : ν (c.subscribe N r w).world = ν c.world :=
      registers.missing c.cookie c.fd r w c.world up absent
    refine ⟨enrolled_idle idle, ?_⟩
    rw [table]
    exact .refl _ _
  · obtain ⟨member, free⟩ := enrolled.held idle
    obtain ⟨x, table, watch, only⟩ := registers.subscribe c.cookie c.fd r w c.world up member free
    have table' : ν (c.subscribe N r w).world = (ν c.world).watching c.fd x member := table
    have here : ((ν c.world).watching c.fd x member).watch c.fd = x := Function.update_self _ _ _
    refine ⟨⟨fun _ => ?_, fun _ none => ?_, fun _ r' w' some' wants => ?_, fun _ => ?_⟩, ?_⟩
    · rw [table']
      exact ⟨member, free⟩
    · cases last.symm.trans none
    · obtain ⟨rfl, rfl⟩ : r = r' ∧ w = w' := by
        cases last.symm.trans some'
        exact ⟨rfl, rfl⟩
      rw [table', show (c.subscribe N r w).fd = c.fd from rfl, here]
      exact watch wants
    · rw [table', show (c.subscribe N r w).fd = c.fd from rfl, here]
      exact only (enrolled.own idle)
    · rw [table']
      exact local_watching member

theorem enrolled_release (registers : Registers N address ν) {c : Conn T P}
    (up : (ν c.world).up) (enrolled : Enrolled address (ν c.world) c) (held : c.fd ≠ -1) :
    Placed address ν c (c.release N) := by
  obtain ⟨member, free⟩ := enrolled.held held
  obtain ⟨x, cleared⟩ := registers.clear c.fd c.world up member free
  have closed := registers.close c.fd (N.clear c.fd c.world) (by rw [cleared]; exact up)
    (by rw [cleared]; exact member) (by rw [cleared]; exact free)
  have table : ν (c.release N).world = (ν c.world).closing c.fd free := by
    refine closed.trans ?_
    simp only [cleared]
    exact Table.closing_watching free
  refine ⟨enrolled_idle rfl, ?_⟩
  rw [table]
  exact local_closing free

theorem enrolled_dial (registers : Registers N address ν) {c : Conn T P} (up : (ν c.world).up)
    (idle : c.fd = -1) : Placed address ν c (c.begin.dial N).2 := by
  have dialed : Dialed (ν c.world) (ν (c.begin.dial N).2.world) (c.begin.dial N).2.fd :=
    dial_table registers c.host c.port c.world up
  constructor
  · have adopted : interest (c.begin.dial N).2.fd (c.begin.dial N).2.history = none := rfl
    rcases dialed with ⟨none, -⟩ | ⟨proper, fresh, table⟩
    · exact enrolled_idle none
    · have silent : (ν (c.begin.dial N).2.world).watch (c.begin.dial N).2.fd = Watch.none := by
        rw [table]
        exact (ν c.world).quiet _ fresh
      refine ⟨fun _ => ?_, fun _ _ => silent, fun _ r w some' => ?_, fun _ => ?_⟩
      · rw [table]
        exact ⟨Set.mem_insert _ _, fun member => fresh ((ν c.world).kept up _ member)⟩
      · cases adopted.symm.trans some'
      · rw [silent]
        exact Watch.only_none _
  · rw [idle]
    exact local_dialed dialed

section Moves

variable (registers : Registers N address ν) (transport : T.Respects (Unmoved ν))
variable (protocol : P.Respects (Unmoved ν))
include registers protocol

theorem enrolled_initFailed {c : Conn T P} {w : ω} (up : (ν c.world).up)
    (enrolled : Enrolled address (ν c.world) c) (table : ν w = ν c.world) (held : c.fd ≠ -1) :
    Placed address ν c (c.initFailed N w) := by
  have failed : Placed address ν c ((c.notInitialised w).assign .error) :=
    enrolled.placed table rfl rfl rfl
  have up' : (ν ((c.notInitialised w).assign .error).world).up := by
    show (ν w).up
    rw [table]
    exact up
  have session : ν ((c.notInitialised w).assign .error).sessionTeardown.world = ν c.world := by
    refine Eq.trans ?_ table
    unfold Conn.sessionTeardown
    rcases declared : P.teardown with _ | f
    · rfl
    · exact protocol.teardown f declared _ _ up'
  have fd : ((c.notInitialised w).assign .error).sessionTeardown.fd = c.fd :=
    Conn.sessionTeardown_fd _
  have before : Placed address ν c ((c.notInitialised w).assign .error).sessionTeardown :=
    enrolled.placed session fd (Conn.sessionTeardown_cookie _)
      (Conn.sessionTeardown_unread (f := interest c.fd) (fun _ _ => rfl) _)
  unfold Conn.initFailed
  dsimp only
  rw [if_pos (show ((c.notInitialised w).assign .error).fd ≠ -1 from held)]
  exact (enrolled_release registers (by rw [session]; exact up) before.enrolled
    (by rw [fd]; exact held)).from session fd

include transport

/-- `teardown` gives the descriptor up, whatever the session and the endpoint do before. -/
theorem enrolled_teardown {c : Conn T P} (up : (ν c.world).up)
    (enrolled : Enrolled address (ν c.world) c) : Placed address ν c (c.teardown N) := by
  by_cases idle : c.fd = -1
  · rw [Conn.teardown_idle N idle]
    exact enrolled.placed rfl rfl rfl rfl
  · have session : ν c.sessionTeardown.world = ν c.world := by
      unfold Conn.sessionTeardown
      rcases declared : P.teardown with _ | f
      · rfl
      · exact protocol.teardown f declared c.protocol c.world up
    have endpoint : ν c.sessionTeardown.endpointDestroy.world = ν c.world :=
      (transport.destroy c.sessionTeardown.transport c.sessionTeardown.world (by rw [session]; exact up)).trans
        session
    have fd : c.sessionTeardown.endpointDestroy.fd = c.fd := c.sessionTeardown_fd
    have before : Placed address ν c c.sessionTeardown.endpointDestroy :=
      enrolled.placed endpoint fd c.sessionTeardown_cookie
        (Conn.sessionTeardown_unread (f := interest c.fd) (fun _ _ => rfl) c)
    rw [Conn.teardown, if_pos idle]
    exact (enrolled_release registers (by rw [endpoint]; exact up) before.enrolled
      (by rw [fd]; exact idle)).from endpoint fd

theorem enrolled_ended {c : Conn T P} (up : (ν c.world).up)
    (enrolled : Enrolled address (ν c.world) c) (s : State) :
    Placed address ν c ((c.assign s).teardown N) :=
  have assigned : Placed address ν c (c.assign s) := enrolled.placed rfl rfl rfl rfl
  (enrolled_teardown registers transport protocol (c := c.assign s) up assigned.enrolled).from rfl rfl

/-- **A step of a connection touches the table at its own descriptor only, and leaves there what
it has asked for.** -/
theorem Move.placed {c c' : Conn T P} (move : Move N O c c') (up : (ν c.world).up)
    (unattached : c.cookie = 0 → c.fd = -1) (enrolled : Enrolled address (ν c.world) c) :
    Placed address ν c c' := by
  have ended : ∀ s, Placed address ν c ((c.assign s).teardown N) :=
    enrolled_ended registers transport protocol up enrolled
  cases move with
  | attach k zero =>
      have dialed := enrolled_dial (c := { c.log (.enter (.attach k)) with cookie := k }) registers up
        (unattached zero)
      exact ⟨dialed.enrolled, dialed.moved⟩
  | restart _ idle =>
      have dialed := enrolled_dial (c := c.renew) registers up idle
      exact ⟨dialed.enrolled, dialed.moved⟩
  | dialPending =>
      have assigned : Placed address ν c (c.assign .inProgress) := enrolled.placed rfl rfl rfl rfl
      exact (enrolled_subscribe (c := c.assign .inProgress) registers up assigned.enrolled
        false true).from rfl rfl
  | initFailed w _ held failed =>
      have table := transport.init c.fd c.transportConfig c.world up
      rw [failed] at table
      exact enrolled_initFailed registers protocol up enrolled table held
  | initHandshake e w _ _ made =>
      have table := transport.init c.fd c.transportConfig c.world up
      rw [made] at table
      exact enrolled.placed table rfl rfl rfl
  | initPlain e w _ _ made =>
      have table := transport.init c.fd c.transportConfig c.world up
      rw [made] at table
      have made' : Placed address ν c (c.initialised e w) := enrolled.placed table rfl rfl rfl
      have heard := enrolled_subscribe (c := c.initialised e w) registers
        (show (ν w).up by rw [table]; exact up) made'.enrolled true false
      have assigned : Placed address ν ((c.initialised e w).subscribe N true false)
          (((c.initialised e w).subscribe N true false).assign .protocol) :=
        heard.enrolled.placed rfl rfl rfl rfl
      exact Placed.from ⟨assigned.enrolled, heard.moved⟩ table rfl
  | polled ret err w _ answered =>
      have table := registers.getsockopt c.fd c.world up
      rw [answered] at table
      exact enrolled.placed table rfl rfl rfl
  | refused ret err w _ answered =>
      have table := registers.getsockopt c.fd c.world up
      rw [answered] at table
      have polled : Placed address ν c (c.polled ret err w) := enrolled.placed table rfl rfl rfl
      exact (enrolled_ended registers transport protocol (c := c.polled ret err w)
        (show (ν w).up by rw [table]; exact up) polled.enrolled .error).from table rfl
  | handshake f status e w declared _ answered =>
      exact enrolled.placed (transport.handshakeStep f declared answered up) rfl rfl rfl
  | shutdown f status e w declared _ answered =>
      exact enrolled.placed (transport.shutdownStep f declared answered up) rfl rfl rfl
  | subscribe r w => exact enrolled_subscribe registers up enrolled r w
  | read status e rx w _ _ answered =>
      exact enrolled.placed (transport.read answered up) rfl rfl rfl
  | write status e tx w _ _ _ answered =>
      exact enrolled.placed (transport.write answered up) rfl rfl rfl
  | handler kind f status s io w handles answered =>
      exact enrolled.placed (handles.respects protocol answered up) rfl rfl rfl
  | heartbeat f s tx w declared _ answered =>
      exact enrolled.placed (protocol.heartbeat f declared answered up) rfl rfl rfl
  | overflow =>
      have logged : Placed address ν c (c.log (.overflow c.rx)) := enrolled.placed rfl rfl rfl rfl
      exact (enrolled_ended registers transport protocol (c := c.log (.overflow c.rx)) up
        logged.enrolled .error).from rfl rfl
  | dropped | fail => exact ended .error
  | finish | stop => exact ended .closed
  | _ => exact enrolled.placed rfl rfl rfl rfl

end Moves

/-- The backend reports to the connection what its state waits for. -/
def Reported (address : Nat → UInt64) (t : Table) (c : Conn T P) : Prop :=
  match c.state with
  | .uninitialized => False
  | .inProgress => (t.watch c.fd).write = some (address c.cookie)
  | .transport | .closeTransport =>
      (asked c.history = some .wantRead → (t.watch c.fd).read = some (address c.cookie)) ∧
        (asked c.history = some .wantWrite → (t.watch c.fd).write = some (address c.cookie))
  | .protocol | .closeProtocol =>
      (t.watch c.fd).read = some (address c.cookie) ∧
        (c.tx.rsize ≠ 0 → (t.watch c.fd).write = some (address c.cookie))
  | .drainProtocol =>
      (T.Keeps → c.tx.rsize ≠ 0) ∧
        (c.tx.rsize ≠ 0 → (t.watch c.fd).write = some (address c.cookie))
  | .closed | .error => True

theorem Wakes.reads {t : Table} {c : Conn T P} {w : Bool} (wakes : Wakes c true w)
    (held : c.fd ≠ -1) (enrolled : Enrolled address t c) :
    (t.watch c.fd).read = some (address c.cookie) := by
  obtain ⟨r', w', last, reads, -⟩ := wakes
  have heard := (enrolled.heard held r' w' last (.inl (reads rfl))).read
  rwa [if_pos (reads rfl)] at heard

theorem Wakes.writes {t : Table} {c : Conn T P} {r : Bool} (wakes : Wakes c r true)
    (held : c.fd ≠ -1) (enrolled : Enrolled address t c) :
    (t.watch c.fd).write = some (address c.cookie) := by
  obtain ⟨r', w', last, -, writes⟩ := wakes
  have heard := (enrolled.heard held r' w' last (.inr (writes rfl))).write
  rwa [if_pos (writes rfl)] at heard

/-- What a connection has subscribed to is what it gets reports of. -/
theorem Adequate.reported {t : Table} {c : Conn T P} (adequate : Adequate c) (held : c.fd ≠ -1)
    (enrolled : Enrolled address t c) : Reported address t c := by
  unfold Adequate at adequate
  unfold Reported
  cases state : c.state <;> rw [state] at adequate <;> dsimp only at adequate ⊢
  case inProgress => exact adequate.writes held enrolled
  case drainProtocol =>
    refine ⟨adequate.1, fun unsent => ?_⟩
    rw [decide_eq_true unsent] at adequate
    exact adequate.2.writes held enrolled
  case transport | closeTransport =>
    exact ⟨fun ask => (adequate.1 ask).reads held enrolled,
      fun ask => (adequate.2 ask).writes held enrolled⟩
  case protocol | closeProtocol =>
    refine ⟨adequate.reads held enrolled, fun unsent => ?_⟩
    rw [decide_eq_true unsent] at adequate
    exact adequate.writes held enrolled

end Connection

/-! ## All connections -/

section Reactor

variable {ω : Type} {n : Nat} {N : Backend ω} {S : Selector ω n}
variable {T : Fin n → Transport.Layer ω} {P : Fin n → Protocol.Layer ω}
variable {address : Nat → UInt64} {ν : ω → Table}

/-- The table `t` is `t₀`, with one line more for each connection that holds a descriptor. -/
structure Mirrors (address : Nat → UInt64) (t₀ t : Table) (conns : ∀ i, Conn (T i) (P i)) :
    Prop where
  up : t.up
  reserved : t.reserved = t₀.reserved
  enrolled : ∀ i, Enrolled address t (conns i)
  apart : ∀ i j, i ≠ j → (conns j).fd ≠ -1 → (conns i).fd ≠ (conns j).fd
  new : ∀ i, (conns i).fd ∉ t₀.opened
  others : ∀ d, (∀ i, (conns i).fd ≠ d) → (d ∈ t.opened ↔ d ∈ t₀.opened) ∧ t.watch d = t₀.watch d
  cookie : ∀ i, (conns i).cookie = 0 ∧ (conns i).fd = -1 ∨ (conns i).cookie = i.val + 1

/-! The cookies are addresses of connections. -/

section Pointee

variable (address : Nat → UInt64) (n : Nat)

/-- No two connections live at one address. -/
def DistinctAddresses : Prop := ∀ i j : Fin n, address (i.val + 1) = address (j.val + 1) → i = j

/-- The connection that lives at an address. -/
def pointee (data : UInt64) : Option (Fin n) :=
  (List.finRange n).find? fun i => address (i.val + 1) = data

variable {address n}

theorem pointee_address (distinct : DistinctAddresses address n) (i : Fin n) :
    pointee address n (address (i.val + 1)) = some i := by
  have isSome : (pointee address n (address (i.val + 1))).isSome = true :=
    List.find?_isSome.mpr ⟨i, List.mem_finRange i, decide_eq_true rfl⟩
  obtain ⟨j, found⟩ := Option.isSome_iff_exists.mp isSome
  have there : decide (address (j.val + 1) = address (i.val + 1)) = true :=
    List.find?_some (p := fun j : Fin n => decide (address (j.val + 1) = address (i.val + 1))) found
  rw [found, distinct j i (of_decide_eq_true there)]

end Pointee

/-- A connection that was left alone keeps its line. -/
theorem Enrolled.elsewhere {T : Transport.Layer ω} {P : Protocol.Layer ω} {c : Conn T P}
    {t t' : Table} (enrolled : Enrolled address t c) {fd fd' : Int} (moved : Local t t' fd fd')
    (apart : c.fd ≠ -1 → c.fd ≠ fd ∧ c.fd ≠ fd') : Enrolled address t' c where
  held held := by
    obtain ⟨one, two⟩ := apart held
    obtain ⟨member, free⟩ := enrolled.held held
    refine ⟨(moved.elsewhere c.fd one two).1.mpr member, ?_⟩
    rw [moved.reserved]
    exact free
  unheard held none := by
    obtain ⟨one, two⟩ := apart held
    exact (moved.elsewhere c.fd one two).2.trans (enrolled.unheard held none)
  heard held r w last wants := by
    obtain ⟨one, two⟩ := apart held
    rw [(moved.elsewhere c.fd one two).2]
    exact enrolled.heard held r w last wants
  own held := by
    obtain ⟨one, two⟩ := apart held
    rw [(moved.elsewhere c.fd one two).2]
    exact enrolled.own held

/-- What one connection does to its own line leaves the table a mirror. -/
theorem Mirrors.placed {t₀ : Table} {r : Reactor T P}
    (mirrors : Mirrors address t₀ (ν r.world) r.conns) {i : Fin n} {c : Conn (T i) (P i)}
    (placed : Placed address ν (r.conn i) c)
    (cookie : c.cookie = 0 ∧ c.fd = -1 ∨ c.cookie = i.val + 1) :
    Mirrors address t₀ (ν (r.put i c).world) (r.put i c).conns := by
  have moved : Local (ν r.world) (ν c.world) (r.conns i).fd c.fd := placed.moved
  -- the new descriptor is nobody else's
  have fresh : ∀ j, j ≠ i → (r.conns j).fd ≠ -1 → (r.conns j).fd ≠ c.fd := by
    intro j other held same
    rcases moved.fresh with kept | idle | unopened
    · exact mirrors.apart i j other.symm held (kept.symm.trans same.symm)
    · exact held (same.trans idle)
    · exact unopened (same ▸ ((mirrors.enrolled j).held held).1)
  have new : c.fd ∉ t₀.opened := by
    rcases moved.fresh with kept | idle | unopened
    · rw [kept]
      exact mirrors.new i
    · rw [idle]
      exact t₀.idle_not_mem
    · intro member
      by_cases idle : c.fd = -1
      · exact t₀.idle_not_mem (idle ▸ member)
      · refine unopened ((mirrors.others c.fd fun j same => ?_).1.mpr member)
        exact unopened (same ▸ ((mirrors.enrolled j).held (same ▸ idle)).1)
  refine ⟨moved.up mirrors.up, moved.reserved.trans mirrors.reserved, ?_, ?_, ?_, ?_, ?_⟩
  · refine Reactor.forall_put (p := fun j c' => Enrolled address (ν c.world) c') placed.enrolled ?_
    intro j other
    exact (mirrors.enrolled j).elsewhere moved fun held =>
      ⟨(mirrors.apart i j other.symm held).symm, fresh j other held⟩
  · intro j k distinct held
    by_cases hj : j = i
    · subst hj
      rw [Reactor.put_conns_other r distinct.symm] at held ⊢
      rw [Reactor.put_conns_self]
      exact (fresh k distinct.symm held).symm
    · rw [Reactor.put_conns_other r hj]
      by_cases hk : k = i
      · subst hk
        rw [Reactor.put_conns_self] at held ⊢
        intro same
        exact fresh j hj (same ▸ held) same
      · rw [Reactor.put_conns_other r hk] at held ⊢
        exact mirrors.apart j k distinct held
  · exact Reactor.forall_put (p := fun j c' => c'.fd ∉ t₀.opened) new fun j _ => mirrors.new j
  · intro d unheld
    have here : c.fd ≠ d := by
      have unheld' := unheld i
      rwa [Reactor.put_conns_self] at unheld'
    by_cases old : (r.conns i).fd = d
    · -- the descriptor was given up: it is closed, as it was in the beginning
      have closed : d ∉ (ν c.world).opened := by
        rcases moved.gone with kept | gone
        · exact absurd (kept.trans old) here
        · exact old ▸ gone
      have absent : d ∉ t₀.opened := old ▸ mirrors.new i
      refine ⟨⟨fun member => absurd member closed, fun member => absurd member absent⟩, ?_⟩
      exact ((ν c.world).quiet d closed).trans (t₀.quiet d absent).symm
    · obtain ⟨opened, watch⟩ := moved.elsewhere d (Ne.symm old) (Ne.symm here)
      have before := mirrors.others d fun j => by
        by_cases hj : j = i
        · rw [hj]
          exact old
        · have unheld' := unheld j
          rwa [Reactor.put_conns_other r hj] at unheld'
      exact ⟨opened.trans before.1, watch.trans before.2⟩
  · exact Reactor.forall_put (p := fun j c' => c'.cookie = 0 ∧ c'.fd = -1 ∨ c'.cookie = j.val + 1)
      cookie fun j _ => mirrors.cookie j

section Run

variable (registers : Registers N address ν) (transports : ∀ i, (T i).Respects (Unmoved ν))
variable (protocols : ∀ i, (P i).Respects (Unmoved ν)) (selects : S.Respects (Unmoved ν))
include registers transports protocols selects

/-- A step of the reactor before `Net::stop`. -/
theorem Track.mirrors {t₀ : Table} {r r' : Reactor T P} (track : Track N S r r')
    (mirrors : r.stops = 0 → Mirrors address t₀ (ν r.world) r.conns) :
    r'.stops = 0 → Mirrors address t₀ (ν r'.world) r'.conns := by
  intro running
  cases track with
  | netStop => exact absurd running (Nat.succ_ne_zero r.stops)
  | halt | tick | hand | begins => exact mirrors running
  | poll =>
      have before := mirrors running
      have table : ν (S.poll r.world).2 = ν r.world := selects.poll r.world before.up
      show Mirrors address t₀ (ν (S.poll r.world).2) r.conns
      rw [table]
      exact before
  | drain =>
      have before := mirrors running
      have table : ν (S.drain r.world) = ν r.world := selects.drain r.world before.up
      show Mirrors address t₀ (ν (S.drain r.world)) r.conns
      rw [table]
      exact before
  | enter i entry =>
      have before := mirrors running
      have enrolled : Enrolled address (ν (r.conn i).world) (r.conn i) :=
        ⟨(before.enrolled i).held, (before.enrolled i).unheard, (before.enrolled i).heard,
          (before.enrolled i).own⟩
      exact before.placed (enrolled.placed rfl rfl rfl rfl) (before.cookie i)
  | attach i _ idle =>
      have before := mirrors running
      have dialed := enrolled_dial
        (c := { (r.conn i).log (.enter (.attach (i.val + 1))) with cookie := i.val + 1 }) registers
        before.up idle
      exact before.placed ⟨dialed.enrolled, dialed.moved⟩ (.inr rfl)
  | restart i attached idle =>
      have before := mirrors running
      have dialed := enrolled_dial (c := ((r.conn i).log (.enter .restart)).renew) registers
        before.up idle
      refine before.placed ⟨dialed.enrolled, dialed.moved⟩ ?_
      exact .inr ((before.cookie i).resolve_left fun unattached => attached unattached.1)
  | move i c move =>
      have before := mirrors running
      have enrolled : Enrolled address (ν (r.conn i).world) (r.conn i) :=
        ⟨(before.enrolled i).held, (before.enrolled i).unheard, (before.enrolled i).heard,
          (before.enrolled i).own⟩
      obtain ⟨cookie, fd⟩ := move.holds
      refine before.placed (move.placed registers (transports i) (protocols i) before.up ?_ enrolled) ?_
      · intro zero
        rcases before.cookie i with ⟨-, idle⟩ | attached
        · exact idle
        · have zero' : (r.conns i).cookie = 0 := zero
          omega
      · rw [cookie]
        rcases before.cookie i with ⟨zero, idle⟩ | attached
        · refine .inl ⟨zero, ?_⟩
          rcases fd with same | gone
          · exact same.trans idle
          · exact gone
        · exact .inr attached

omit registers transports protocols selects in
/-- Before anything has happened the table is its own mirror. -/
theorem make_mirrors (configs : ∀ i, ConnectionConfig (T i) (P i)) (w : ω) (up : (ν w).up) :
    Mirrors address (ν w) (ν w) (Reactor.make configs w).conns :=
  ⟨up, rfl, fun _ => enrolled_idle rfl, fun _ _ _ held => absurd rfl held,
    fun _ => (ν w).idle_not_mem, fun _ _ => ⟨.rfl, rfl⟩, fun _ => .inl ⟨rfl, rfl⟩⟩

/-- **What the backend holds is what the connections asked for.**  After any run that has not
stopped it, the table is the one it started with and one line for each connection with a
descriptor, under its own cookie; and once the calls have returned, the line has what the state of
the connection waits for. -/
theorem registered_as_asked (fuel k : Nat) (configs : ∀ i, ConnectionConfig (T i) (P i)) (w : ω)
    (up : (ν w).up) :
    let run := (run N S fuel k).exec (Reactor.make configs w)
    run.2.stops = 0 →
      Mirrors address (ν w) (ν run.2.world) run.2.conns ∧
        (run.1 = some () → ∀ i, (run.2.conns i).fd ≠ -1 →
          Reported address (ν run.2.world) (run.2.conns i)) := by
  intro run running
  have tracks := run_tracks (N := N) (S := S) fuel k configs w
  have unstarted : (Reactor.make configs w).stops = 0 →
      Mirrors address (ν w) (ν w) (Reactor.make configs w).conns := fun _ => make_mirrors configs w up
  have mirrors := path_invariant
    (fun _ _ track inv => track.mirrors registers transports protocols selects inv)
    tracks.1 unstarted running
  refine ⟨mirrors, fun returned i held => ?_⟩
  have rest : Rest (run.2.conns i) := (tracks.2 () returned i).1
  exact (rest.adequate held).reported held (mirrors.enrolled i)

end Run

/-- A backend that never reports anything. -/
def unready : Selector ω n where
  poll w := (some [], w)
  poll_length _ _ none := by
    cases none
    exact Nat.zero_le _
  drain w := w
  stop w := w

theorem parting_respects (K : ω → ω → Prop) [IsPreorder ω K] :
    (parting : Protocol.Layer ω).Respects K where
  onConnect _ declared := by cases declared
  onData answered := by
    cases answered
    exact refl_of K _
  onShutdown _ declared := by
    cases declared
    intro _ _ _ _ _ _ _ answered
    cases answered
    exact refl_of K _
  heartbeat _ declared := by cases declared
  teardown _ declared := by cases declared

/-- The machine, with epoll started. -/
def started (m : Machine) : Epoll Machine := (Epoll.init linux { world := m }).2

/-- A connection for each page. -/
def pages (cookie : Nat) : UInt64 := UInt64.ofNat (4096 * cookie)

theorem pages_distinct : DistinctAddresses pages 2 := by
  unfold DistinctAddresses
  decide +kernel

/-- Connections without encryption, over one instance of epoll. -/
def crew (n : Nat) (address : Nat → UInt64) (m : Machine) :
    Reactor (n := n) (fun _ => Transport.plain (Epoll.backend linux address) 1) (fun _ => parting) :=
  Reactor.make (fun _ => ⟨"host", 80, (), ()⟩) (started m)

/-- Each of two connections is reported readable, under its own cookie. -/
theorem registered_as_asked_two :
    let run := (run (Epoll.backend linux pages) unready.source 9 2).exec (crew 2 pages {})
    run.1 = some () ∧ (∀ i, (run.2.conns i).fd = 5 + i.val) ∧
      Mirrors pages (Epoll.table Machine.files (started {}))
        (Epoll.table Machine.files run.2.world) run.2.conns ∧
      ∀ i, Reported pages (Epoll.table Machine.files run.2.world) (run.2.conns i) := by
  have registers := Epoll.epoll_registers linux_kernel pages
  have registered := registered_as_asked (N := Epoll.backend linux pages) (S := unready)
    (T := fun _ : Fin 2 => Transport.plain (Epoll.backend linux pages) 1) (P := fun _ => parting)
    registers (fun _ => Transport.plain_respects registers.read registers.write 1)
    (fun _ => parting_respects _)
    ⟨fun _ _ => rfl, fun _ _ => rfl⟩ 9 2 (fun _ => ⟨"host", 80, (), ()⟩) (started {})
    (Epoll.init_starts linux_kernel (s := { world := {} }) rfl).1
  rw [show Reactor.make _ (started {}) = crew 2 pages {} from rfl] at registered
  have returned : ((run (Epoll.backend linux pages) unready.source 9 2).exec (crew 2 pages {})).1 = some () := by
    decide +kernel
  have running : ((run (Epoll.backend linux pages) unready.source 9 2).exec (crew 2 pages {})).2.stops = 0 := by
    decide +kernel
  have fds : ∀ i, (((run (Epoll.backend linux pages) unready.source 9 2).exec (crew 2 pages {})).2.conns i).fd =
      5 + i.val := by decide +kernel
  generalize (run (Epoll.backend linux pages) unready.source 9 2).exec (crew 2 pages {}) = run
    at registered returned running fds ⊢
  obtain ⟨mirrors, reported⟩ := registered running
  refine ⟨returned, fds, mirrors, fun i => ?_⟩
  apply reported returned i
  rw [fds i]
  omega

end Reactor

end Manet.Reactor
