/-
# Manet.Reactor.Worlds — what the layers may do to the world

A preorder on worlds is something the world keeps: a counter that only grows, a table that stays
as it is.  `Respects` says of a backend, a transport or a protocol that its calls only go up in
the preorder.  If all three do, so does every step of a connection (`Move.respects`) and of a
reactor (`Track.respects`), apart from the one that stops the backend.
-/
import Mathlib.Order.Defs.Unbundled
import Manet.Reactor.Tracking

namespace Manet.Net

set_option autoImplicit false

variable {ω : Type}

structure Backend.Respects (N : Backend ω) (K : ω → ω → Prop) : Prop where
  getaddrinfo : ∀ host port w, K w (N.getaddrinfo host port w).2
  socket : ∀ ai w, K w (N.socket ai w).2
  ioctl : ∀ fd w, K w (N.ioctl fd w).2
  connect : ∀ fd ai w, K w (N.connect fd ai w).2
  close : ∀ fd w, K w (N.close fd w)
  getsockopt : ∀ fd w, K w (N.getsockopt fd w).2
  subscribe : ∀ k fd r wr w, K w (N.subscribe k fd r wr w)
  clear : ∀ fd w, K w (N.clear fd w)
  read : ∀ fd len w, K w (N.read fd len w).2
  write : ∀ fd bytes w, K w (N.write fd bytes w).2

variable {N : Backend ω} {K : ω → ω → Prop} [IsPreorder ω K]

theorem dialLoop_respects (respects : N.Respects K) (addrs : List AddrInfo) (result : DialResult)
    (w : ω) (calls : List NetCall) : K w (dialLoop N addrs result w calls).2.1 := by
  induction addrs generalizing result w calls with
  | nil => exact refl_of K w
  | cons ai rest ih =>
      have opened := respects.socket ai w
      have nonblocking := trans_of K opened (respects.ioctl (N.socket ai w).1.value (N.socket ai w).2)
      have connected := trans_of K nonblocking
        (respects.connect (N.socket ai w).1.value ai (N.ioctl (N.socket ai w).1.value (N.socket ai w).2).2)
      simp only [dialLoop]
      split
      · exact trans_of K opened (ih _ _ _)
      split
      · exact trans_of K nonblocking (trans_of K (respects.close _ _) (ih _ _ _))
      split
      · exact connected
      split
      · exact connected
      · exact trans_of K connected (trans_of K (respects.close _ _) (ih _ _ _))

theorem dial_respects (respects : N.Respects K) (host : String) (port : UInt16) (w : ω) :
    K w (dial N host port w).2.1 := by
  have resolved := respects.getaddrinfo host port w
  unfold dial
  rcases answered : N.getaddrinfo host port w with ⟨_ | addrs, w'⟩ <;> rw [answered] at resolved
  · exact resolved
  · exact trans_of K resolved (dialLoop_respects respects addrs _ w' [])

end Manet.Net

namespace Manet.Transport

open Manet.Net Manet.Reactor

set_option autoImplicit false

variable {ω : Type}

structure Layer.Respects (T : Layer ω) (K : ω → ω → Prop) : Prop where
  init : ∀ fd config w, K w (T.init fd config w).2
  handshakeStep : ∀ f, T.handshakeStep = some f → ∀ {e w status e' w'},
    f e w = some (status, e', w') → K w w'
  read : ∀ {e rx w status e' rx' w'}, T.read e rx w = some (status, e', rx', w') → K w w'
  write : ∀ {e tx w status e' tx' w'}, T.write e tx w = some (status, e', tx', w') → K w w'
  shutdownStep : ∀ f, T.shutdownStep = some f → ∀ {e w status e' w'},
    f e w = some (status, e', w') → K w w'
  destroy : ∀ e w, K w (T.destroy e w).2

theorem Layer.Respects.mono {T : Layer ω} {K K' : ω → ω → Prop} (respects : T.Respects K)
    (weaker : ∀ w w', K w w' → K' w w') : T.Respects K' where
  init fd config w := weaker _ _ (respects.init fd config w)
  handshakeStep f declared _ _ _ _ _ answered :=
    weaker _ _ (respects.handshakeStep f declared answered)
  read answered := weaker _ _ (respects.read answered)
  write answered := weaker _ _ (respects.write answered)
  shutdownStep f declared _ _ _ _ _ answered :=
    weaker _ _ (respects.shutdownStep f declared answered)
  destroy e w := weaker _ _ (respects.destroy e w)

variable {N : Backend ω} {K : ω → ω → Prop} [IsPreorder ω K]

theorem plainRead_respects (kept : ∀ fd len w, K w (N.read fd len w).2) {fuel : Nat} {fd fd' : Int}
    {rx rx' : Buffer RX_CAP} {w w' : ω} {status : Status}
    (answered : plainRead N fuel fd rx w = some (status, fd', rx', w')) : K w w' := by
  induction fuel generalizing w with
  | zero => cases answered
  | succ fuel ih =>
      have kept := kept fd rx.wsize w
      unfold plainRead at answered
      rcases read : N.read fd rx.wsize w with ⟨errno | bytes, w₁⟩ <;> rw [read] at kept
      · simp only [read] at answered
        split at answered
        · cases answered
          exact kept
        split at answered
        · exact trans_of K kept (ih answered)
        · cases answered
          exact kept
      · simp only [read] at answered
        split at answered <;> cases answered <;> exact kept

theorem plainWrite_respects (kept : ∀ fd bytes w, K w (N.write fd bytes w).2) {fuel : Nat}
    {fd fd' : Int} {tx tx' : Buffer TX_CAP} {w w' : ω} {status : Status}
    (answered : plainWrite N fuel fd tx w = some (status, fd', tx', w')) : K w w' := by
  induction fuel generalizing w with
  | zero => cases answered
  | succ fuel ih =>
      have kept := kept fd tx.rbuf w
      unfold plainWrite at answered
      rcases wrote : N.write fd tx.rbuf w with ⟨errno | taken, w₁⟩ <;> rw [wrote] at kept
      · simp only [wrote] at answered
        split at answered
        · cases answered
          exact kept
        split at answered
        · exact trans_of K kept (ih answered)
        · cases answered
          exact kept
      · simp only [wrote] at answered
        split at answered <;> simp only [Option.some.injEq, Prod.mk.injEq] at answered <;>
          exact answered.2.2.2 ▸ kept

/-- Without encryption the transport reads and writes, and nothing else. -/
theorem plain_respects (reads : ∀ fd len w, K w (N.read fd len w).2)
    (writes : ∀ fd bytes w, K w (N.write fd bytes w).2) (fuel : Nat) : (plain N fuel).Respects K where
  init _ _ w := refl_of K w
  handshakeStep _ declared := by cases declared
  read := plainRead_respects reads
  write := plainWrite_respects writes
  shutdownStep _ declared := by cases declared
  destroy _ w := refl_of K w

end Manet.Transport

namespace Manet.Protocol

open Manet.Net Manet.Reactor

set_option autoImplicit false

variable {ω : Type}

def Handler.Respects {σ : Type} (f : Handler σ ω) (K : ω → ω → Prop) : Prop :=
  ∀ {s io w status s' io' w'}, f s io w = some (status, s', io', w') → K w w'

structure Layer.Respects (P : Layer ω) (K : ω → ω → Prop) : Prop where
  onConnect : ∀ f, P.onConnect = some f → Handler.Respects f K
  onData : Handler.Respects P.onData K
  onShutdown : ∀ f, P.onShutdown = some f → Handler.Respects f K
  heartbeat : ∀ f, P.heartbeat = some f → ∀ {s tx w s' tx' w'},
    f s tx w = some (s', tx', w') → K w w'
  teardown : ∀ f, P.teardown = some f → ∀ s w, K w (f s w).2

theorem Layer.Respects.mono {P : Layer ω} {K K' : ω → ω → Prop} (respects : P.Respects K)
    (weaker : ∀ w w', K w w' → K' w w') : P.Respects K' where
  onConnect f declared _ _ _ _ _ _ _ answered := weaker _ _ (respects.onConnect f declared answered)
  onData answered := weaker _ _ (respects.onData answered)
  onShutdown f declared _ _ _ _ _ _ _ answered := weaker _ _ (respects.onShutdown f declared answered)
  heartbeat f declared _ _ _ _ _ _ answered := weaker _ _ (respects.heartbeat f declared answered)
  teardown f declared s w := weaker _ _ (respects.teardown f declared s w)

end Manet.Protocol

namespace Manet.Reactor

open Manet.Flow Manet.Net Relation

set_option autoImplicit false

section Connection

variable {ω : Type} {N : Backend ω} {O : Prop} {T : Transport.Layer ω} {P : Protocol.Layer ω}
variable {K : ω → ω → Prop} [IsPreorder ω K]

theorem sessionTeardown_respects (protocol : P.Respects K) (c : Conn T P) :
    K c.world c.sessionTeardown.world := by
  unfold Conn.sessionTeardown
  rcases declared : P.teardown with _ | f
  · exact refl_of K c.world
  · exact protocol.teardown f declared c.protocol c.world

omit [IsPreorder ω K] in
theorem Handles.respects (protocol : P.Respects K) {c : Conn T P} {kind : Protocol.HandlerKind}
    {f : Protocol.Handler P.Session ω} (handles : Handles c kind f) : Protocol.Handler.Respects f K := by
  cases handles with
  | onConnect declared => exact protocol.onConnect f declared
  | onData => exact protocol.onData
  | onShutdown declared => exact protocol.onShutdown f declared

theorem release_respects (backend : N.Respects K) (c : Conn T P) :
    K c.world (c.release N).world :=
  trans_of K (backend.clear c.fd c.world) (backend.close c.fd _)

variable (backend : N.Respects K) (transport : T.Respects K) (protocol : P.Respects K)
include backend transport protocol

theorem teardown_respects (c : Conn T P) : K c.world (c.teardown N).world := by
  unfold Conn.teardown
  split
  · exact trans_of K (sessionTeardown_respects protocol c)
      (trans_of K (transport.destroy c.sessionTeardown.transport _)
        (release_respects backend c.sessionTeardown.endpointDestroy))
  · exact refl_of K c.world

/-- **No step of a connection breaks what its calls keep.** -/
theorem Move.respects {c c' : Conn T P} (move : Move N O c c') : K c.world c'.world := by
  have init : ∀ {result w}, T.init c.fd c.transportConfig c.world = (result, w) → K c.world w := by
    intro result w answered
    have kept := transport.init c.fd c.transportConfig c.world
    rwa [answered] at kept
  have polled : ∀ {result w}, N.getsockopt c.fd c.world = (result, w) → K c.world w := by
    intro result w answered
    have kept := backend.getsockopt c.fd c.world
    rwa [answered] at kept
  cases move with
  | attach | restart => exact dial_respects backend c.host c.port c.world
  | dialPending => exact backend.subscribe c.cookie c.fd false true c.world
  | initFailed w _ held failed =>
      unfold Conn.initFailed
      dsimp only
      rw [if_pos (show ((c.notInitialised w).assign .error).fd ≠ -1 from held)]
      exact trans_of K (init failed) (trans_of K (sessionTeardown_respects protocol
        ((c.notInitialised w).assign .error)) (release_respects backend _))
  | initHandshake _ _ _ _ made => exact init made
  | initPlain _ w _ _ made => exact trans_of K (init made) (backend.subscribe c.cookie c.fd true false w)
  | polled _ _ _ _ answered => exact polled answered
  | refused ret err w _ answered =>
      exact trans_of K (polled answered)
        (teardown_respects backend transport protocol ((c.polled ret err w).assign .error))
  | handshake f _ _ _ declared _ answered => exact transport.handshakeStep f declared answered
  | shutdown f _ _ _ declared _ answered => exact transport.shutdownStep f declared answered
  | subscribe r w => exact backend.subscribe c.cookie c.fd r w c.world
  | read _ _ _ _ _ _ answered => exact transport.read answered
  | write _ _ _ _ _ _ _ answered => exact transport.write answered
  | handler _ _ _ _ _ _ handles answered => exact handles.respects protocol answered
  | heartbeat f _ _ _ declared _ answered => exact protocol.heartbeat f declared answered
  | overflow =>
      exact teardown_respects backend transport protocol ((c.log (.overflow c.rx)).assign .error)
  | dropped | fail => exact teardown_respects backend transport protocol (c.assign .error)
  | finish | stop => exact teardown_respects backend transport protocol (c.assign .closed)
  | _ => exact refl_of K c.world

end Connection

section Reactor

variable {ω : Type} {n : Nat} {N : Backend ω} {S : Selector ω n}
variable {T : Fin n → Transport.Layer ω} {P : Fin n → Protocol.Layer ω}
variable {K : ω → ω → Prop} [IsPreorder ω K]

/-- Polling and draining the signal; stopping need not respect anything. -/
structure Selector.Respects (S : Selector ω n) (K : ω → ω → Prop) : Prop where
  poll : ∀ w, K w (S.poll w).2
  drain : ∀ w, K w (S.drain w)

omit [IsPreorder ω K] in
theorem Selector.Respects.mono {K' : ω → ω → Prop} (respects : S.Respects K)
    (weaker : ∀ w w', K w w' → K' w w') : S.Respects K' :=
  ⟨fun w => weaker _ _ (respects.poll w), fun w => weaker _ _ (respects.drain w)⟩

theorem Track.respects (backend : N.Respects K) (transports : ∀ i, (T i).Respects K)
    (protocols : ∀ i, (P i).Respects K) (selects : S.Respects K) {r r' : Reactor T P}
    (track : Track N S r r') : K r.world r'.world ∨ r' = r.netStop S := by
  cases track with
  | netStop => exact .inr rfl
  | move i c move => exact .inl (move.respects backend (transports i) (protocols i))
  | attach i => exact .inl (dial_respects backend (r.conns i).host (r.conns i).port r.world)
  | restart i => exact .inl (dial_respects backend (r.conns i).host (r.conns i).port r.world)
  | poll => exact .inl (selects.poll r.world)
  | drain => exact .inl (selects.drain r.world)
  | _ => exact .inl (refl_of K r.world)

end Reactor

end Manet.Reactor
