/-
# Manet.Protocol.Handlers — the protocol interface

`Layer ω` is `protocol/concepts.hpp`: a session made from host, port and
configuration, and its handlers.  The optional ones are `none` when the protocol
does not declare them.  A handler sees both buffers through `Io` and may change
them in any way; `none` as its answer means it did not return.
-/
import Manet.Reactor.Buffer

namespace Manet.Protocol

open Manet.Reactor

set_option autoImplicit false

inductive Status where
  | ok
  | close
  | error
  deriving DecidableEq, Repr

/-- A handler of sessions `σ`. -/
abbrev Handler (σ ω : Type) := σ → Io → ω → Option (Status × σ × Io × ω)

structure Layer (ω : Type) where
  Config : Type
  Session : Type
  session : String → UInt16 → Config → Session
  onConnect : Option (Handler Session ω)
  onData : Handler Session ω
  onShutdown : Option (Handler Session ω)
  heartbeat : Option (Session → Buffer TX_CAP → ω → Option (Session × Buffer TX_CAP × ω))
  teardown : Option (Session → ω → Session × ω)

/-- Handlers that keep the buffers valid. -/
def Handler.Within {σ ω : Type} (f : Handler σ ω) : Prop :=
  ∀ {s io w status s' io' w'}, f s io w = some (status, s', io', w') → io.Valid → io'.Valid

structure Layer.Within {ω : Type} (P : Layer ω) : Prop where
  onConnect : ∀ f, P.onConnect = some f → Handler.Within f
  onData : Handler.Within P.onData
  onShutdown : ∀ f, P.onShutdown = some f → Handler.Within f
  heartbeat : ∀ f, P.heartbeat = some f → ∀ {s tx w s' tx' w'},
    f s tx w = some (s', tx', w') → tx.Valid → tx'.Valid

/-- Handlers that only use the windows they are given. -/
def Handler.Uses {σ ω : Type} (f : Handler σ ω) : Prop :=
  ∀ {s io w status s' io' w'}, f s io w = some (status, s', io', w') → Io.Uses io io'

structure Layer.Uses {ω : Type} (P : Layer ω) : Prop where
  onConnect : ∀ f, P.onConnect = some f → Handler.Uses f
  onData : Handler.Uses P.onData
  onShutdown : ∀ f, P.onShutdown = some f → Handler.Uses f
  heartbeat : ∀ f, P.heartbeat = some f → ∀ {s tx w s' tx' w'},
    f s tx w = some (s', tx', w') → ∀ rx, Io.Uses ⟨rx, tx⟩ ⟨rx, tx'⟩

theorem Layer.Uses.within {ω : Type} {P : Layer ω} (uses : P.Uses) : P.Within where
  onConnect f declared _ _ _ _ _ _ _ answered := (uses.onConnect f declared answered).valid
  onData answered := (uses.onData answered).valid
  onShutdown f declared _ _ _ _ _ _ _ answered := (uses.onShutdown f declared answered).valid
  heartbeat f declared _ _ _ _ _ _ answered valid :=
    ((uses.heartbeat f declared answered .init).valid ⟨Buffer.init_valid, valid⟩).tx

/-- Every handler returns. -/
structure Layer.Answers {ω : Type} (P : Layer ω) : Prop where
  onConnect : ∀ f, P.onConnect = some f → ∀ s io w, f s io w ≠ none
  onData : ∀ s io w, P.onData s io w ≠ none
  onShutdown : ∀ f, P.onShutdown = some f → ∀ s io w, f s io w ≠ none
  heartbeat : ∀ f, P.heartbeat = some f → ∀ s tx w, f s tx w ≠ none

/-- Which handler was called. -/
inductive HandlerKind where
  | onConnect
  | onData
  | onShutdown
  deriving DecidableEq, Repr

end Manet.Protocol
