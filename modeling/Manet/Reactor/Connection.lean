/-
# Manet.Reactor.Connection — the connection state machine

`Connection<Net, Transport, Protocol>` (`reactor/connection.hpp`), function by
function.  A method is a `Prog` over `Conn`: the data members, the world the
network and the handlers act on, and a history.  The history is the only thing
the source does not have: every call the connection makes on its network, its
endpoint or its session, every assignment to `_state` and every entry from
outside is recorded with its answer, newest first, each stamped with the value of
`_state` at that moment.

Loops take a fuel; a call that does not return is recorded as such and ends the
run.  `exec` runs any sequence of entry points on a new connection.
-/
import Manet.Flow.Prog
import Manet.Protocol.Handlers
import Manet.Transport.Endpoint

namespace Manet.Reactor

open Manet.Flow Manet.Net

set_option autoImplicit false

/-- `state_t` -/
inductive State where
  | uninitialized
  | inProgress
  | transport
  | protocol
  | closeProtocol
  | drainProtocol
  | closeTransport
  | closed
  | error
  deriving DecidableEq, Repr

/-- The entry points of a connection. -/
inductive Entry where
  | attach (cookie : Nat)
  | handleEvent (ev : Event)
  | heartbeat
  | stop
  | restart
  | destruct
  deriving DecidableEq, Repr

/-- The calls that need not return. -/
inductive Callee where
  | handshakeStep
  | read (offered : Buffer RX_CAP)
  | write (offered : Buffer TX_CAP)
  | shutdownStep
  | handler (kind : Protocol.HandlerKind) (offered : Io)
  | heartbeat

inductive Act where
  | enter (entry : Entry)
  /-- `enter_uninitialized`: a new epoch. -/
  | begin
  | net (call : NetCall)
  /-- `_fd` takes the dialed descriptor. -/
  | adopt (fd : Int)
  | init (ok : Bool)
  | handshakeStep (status : Transport.Status)
  | read (status : Transport.Status) (before after : Buffer RX_CAP)
  | write (status : Transport.Status) (before after : Buffer TX_CAP)
  | shutdownStep (status : Transport.Status)
  | destroy
  | handler (kind : Protocol.HandlerKind) (status : Protocol.Status) (before after : Io)
  | heartbeat (before after : Buffer TX_CAP)
  | teardown
  | assign (state : State)
  /-- The log line "rx buffer overflow". -/
  | overflow (rx : Buffer RX_CAP)
  | noReturn (callee : Callee)
  | unreachable

abbrev History := List (State × Act)

variable {ω : Type}

structure Conn (T : Transport.Layer ω) (P : Protocol.Layer ω) where
  rx : Buffer RX_CAP
  tx : Buffer TX_CAP
  transport : T.Endpoint
  protocol : P.Session
  transportConfig : T.Config
  protocolConfig : P.Config
  host : String
  /-- `nullptr` is `0`. -/
  cookie : Nat
  fd : Int
  state : State
  port : UInt16
  world : ω
  history : History

variable (N : Backend ω) {T : Transport.Layer ω} {P : Protocol.Layer ω}

namespace Conn

def make (host : String) (port : UInt16) (transportConfig : T.Config)
    (protocolConfig : P.Config) (w : ω) : Conn T P where
  rx := .init
  tx := .init
  transport := T.blank
  protocol := P.session host port protocolConfig
  transportConfig := transportConfig
  protocolConfig := protocolConfig
  host := host
  cookie := 0
  fd := -1
  state := .uninitialized
  port := port
  world := w
  history := []

def log (c : Conn T P) (act : Act) : Conn T P := { c with history := (c.state, act) :: c.history }

/-- `_state = s` -/
def assign (s : State) (c : Conn T P) : Conn T P := { c.log (.assign s) with state := s }

def closed (c : Conn T P) : Bool := c.state = .closed

def done (c : Conn T P) : Bool := c.state = .error ∨ c.state = .closed

/-- `Net::subscribe(_cookie, _fd, want_read, want_write)` -/
def subscribe (wantRead wantWrite : Bool) (c : Conn T P) : Conn T P :=
  { c.log (.net (.subscribe c.fd wantRead wantWrite)) with
    world := N.subscribe c.cookie c.fd wantRead wantWrite c.world }

/-- `_protocol.teardown()`, if declared. -/
def sessionTeardown (c : Conn T P) : Conn T P :=
  match P.teardown with
  | none => c
  | some f => { c.log .teardown with
      protocol := (f c.protocol c.world).1, world := (f c.protocol c.world).2 }

def endpointDestroy (c : Conn T P) : Conn T P :=
  { c.log .destroy with
    transport := (T.destroy c.transport c.world).1, world := (T.destroy c.transport c.world).2 }

/-- `Net::clear(_fd); Net::close(_fd); _fd = -1;` -/
def release (c : Conn T P) : Conn T P :=
  { (c.log (.net (.clear c.fd))).log (.net (.close c.fd)) with
    world := N.close c.fd (N.clear c.fd c.world), fd := -1 }

def teardown (c : Conn T P) : Conn T P :=
  if c.fd ≠ -1 then release N (endpointDestroy (sessionTeardown c)) else c

def enterError (c : Conn T P) : Conn T P := teardown N (assign .error c)

def enterClosed (c : Conn T P) : Conn T P := teardown N (assign .closed c)

/-! What an answered call leaves. -/

def handshook (c : Conn T P) (status : Transport.Status) (e : T.Endpoint) (w : ω) : Conn T P :=
  { c.log (.handshakeStep status) with transport := e, world := w }

def didShutdown (c : Conn T P) (status : Transport.Status) (e : T.Endpoint) (w : ω) : Conn T P :=
  { c.log (.shutdownStep status) with transport := e, world := w }

def didRead (c : Conn T P) (status : Transport.Status) (e : T.Endpoint) (rx : Buffer RX_CAP)
    (w : ω) : Conn T P :=
  { c.log (.read status c.rx rx) with transport := e, rx := rx, world := w }

def didWrite (c : Conn T P) (status : Transport.Status) (e : T.Endpoint) (tx : Buffer TX_CAP)
    (w : ω) : Conn T P :=
  { c.log (.write status c.tx tx) with transport := e, tx := tx, world := w }

def handled (c : Conn T P) (kind : Protocol.HandlerKind) (status : Protocol.Status)
    (s : P.Session) (io : Io) (w : ω) : Conn T P :=
  { c.log (.handler kind status ⟨c.rx, c.tx⟩ io) with
    protocol := s, rx := io.rx, tx := io.tx, world := w }

def beaten (c : Conn T P) (s : P.Session) (tx : Buffer TX_CAP) (w : ω) : Conn T P :=
  { c.log (.heartbeat c.tx tx) with protocol := s, tx := tx, world := w }

def polled (c : Conn T P) (ret err : Int) (w : ω) : Conn T P :=
  { c.log (.net (.getsockopt c.fd ret err)) with world := w }

def initialised (c : Conn T P) (e : T.Endpoint) (w : ω) : Conn T P :=
  { c.log (.init true) with transport := e, world := w }

def notInitialised (c : Conn T P) (w : ω) : Conn T P := { c.log (.init false) with world := w }

/-- `Endpoint::init` failed: the descriptor is returned, and the endpoint is not
destroyed. -/
def initFailed (c : Conn T P) (w : ω) : Conn T P :=
  let c := (c.notInitialised w).assign .error
  if c.fd ≠ -1 then release N (sessionTeardown c) else c

end Conn

/-- Methods of the connection. -/
abbrev Method (T : Transport.Layer ω) (P : Protocol.Layer ω) := Prog (Conn T P)

/-! ## Calls on the endpoint and the session -/

def noReturn {α : Type} (callee : Callee) : Method T P α := do
  modify (Conn.log · (.noReturn callee))
  failure

def endpointHandshakeStep (f : T.Endpoint → ω → Option (Transport.Status × T.Endpoint × ω)) :
    Method T P Transport.Status := do
  let c ← get
  match f c.transport c.world with
  | none => noReturn .handshakeStep
  | some (status, e, w) =>
      modify (Conn.handshook · status e w)
      return status

def endpointShutdownStep (f : T.Endpoint → ω → Option (Transport.Status × T.Endpoint × ω)) :
    Method T P Transport.Status := do
  let c ← get
  match f c.transport c.world with
  | none => noReturn .shutdownStep
  | some (status, e, w) =>
      modify (Conn.didShutdown · status e w)
      return status

/-- `_transport.read(Output{&_rx})` -/
def endpointRead : Method T P Transport.Status := do
  let c ← get
  match T.read c.transport c.rx c.world with
  | none => noReturn (.read c.rx)
  | some (status, e, rx, w) =>
      modify (Conn.didRead · status e rx w)
      return status

/-- `_transport.write(Input{&_tx})` -/
def endpointWrite : Method T P Transport.Status := do
  let c ← get
  match T.write c.transport c.tx c.world with
  | none => noReturn (.write c.tx)
  | some (status, e, tx, w) =>
      modify (Conn.didWrite · status e tx w)
      return status

/-- `(_protocol.*Handler)(IO{Input{&_rx}, Output{&_tx}})` -/
def sessionHandler (kind : Protocol.HandlerKind) (f : Protocol.Handler P.Session ω) :
    Method T P Protocol.Status := do
  let c ← get
  match f c.protocol ⟨c.rx, c.tx⟩ c.world with
  | none => noReturn (.handler kind ⟨c.rx, c.tx⟩)
  | some (status, s, io, w) =>
      modify (Conn.handled · kind status s io w)
      return status

def sessionHeartbeat
    (f : P.Session → Buffer TX_CAP → ω → Option (P.Session × Buffer TX_CAP × ω)) :
    Method T P Unit := do
  let c ← get
  match f c.protocol c.tx c.world with
  | none => noReturn .heartbeat
  | some (s, tx, w) =>
      modify (Conn.beaten · s tx w)

/-! ## The methods -/

section Methods

def enterCloseTransport : Method T P Unit := modify (Conn.assign .closeTransport)

def arm (status : Transport.Status) : Method T P Unit := do
  match status with
  | .wantRead => modify fun c => c.subscribe N true (c.tx.rsize ≠ 0)
  | .wantWrite =>
      modify fun c => c.subscribe N (c.state = .protocol ∨ c.state = .closeProtocol) true
  | .error => modify (Conn.enterError N)
  -- handled by the caller
  | .ok | .close => pure ()

/-- One turn of the loop in `transport_write`; a value leaves the loop. -/
def writeTurn : Method T P (Option Bool) := do
  let c ← get
  if c.fd = -1 ∨ c.tx.rsize = 0 then return some true
  let before := c.tx.rsize
  let status ← endpointWrite
  let c ← get
  if status = .close ∧ c.state ≠ .error then
    enterCloseTransport
    return some false
  else if status ≠ .ok then
    arm N status
    return some false
  else if c.tx.rsize = before then
    arm N .wantWrite
    return some false
  else
    return none

def transportWrite (fuel : Nat) (reArm : Bool := true) : Method T P Bool := do
  let flushed ← Prog.iterate (writeTurn N) fuel
  if flushed then
    let c ← get
    if reArm ∧ c.fd ≠ -1 ∧ (c.state = .protocol ∨ c.state = .closeProtocol) then
      modify (Conn.subscribe N true false)
    return true
  else
    return false

/-- One turn of the loop in `enter_close_protocol`. -/
def shutdownTurn (fuel : Nat) (f : Protocol.Handler P.Session ω) : Method T P (Option Unit) := do
  let c ← get
  let before := c.rx.rsize
  match ← sessionHandler .onShutdown f with
  | .ok =>
      let _ ← transportWrite N fuel
      let c ← get
      if c.state ≠ .closeProtocol then return some ()
      else if before ≤ c.rx.rsize then return some ()
      else return none
  | .close =>
      modify (Conn.assign .drainProtocol)
      return some ()
  | .error =>
      modify (Conn.enterError N)
      return some ()

def enterCloseProtocol (fuel : Nat) : Method T P Unit := do
  match P.onShutdown with
  | some f =>
      modify (Conn.assign .closeProtocol)
      Prog.iterate (shutdownTurn N fuel f) fuel
  | none => enterCloseTransport

def bindProtocol (fuel : Nat) (kind : Protocol.HandlerKind) (f : Protocol.Handler P.Session ω) :
    Method T P Unit := do
  match ← sessionHandler kind f with
  | .ok => let _ ← transportWrite N fuel
  | .close =>
      let _ ← transportWrite N fuel
      if P.onShutdown.isSome then
        let c ← get
        if c.state = .protocol then enterCloseProtocol N fuel else enterCloseTransport
      else if ← transportWrite N fuel then enterCloseTransport
      else modify (Conn.assign .drainProtocol)
  | .error => modify (Conn.enterError N)

/-- `enter_Protocol` once `_state` is set. -/
def greet (fuel : Nat) : Method T P Unit := do
  match P.onConnect with
  | some f => bindProtocol N fuel .onConnect f
  | none => let _ ← transportWrite N fuel

def enterProtocol (fuel : Nat) : Method T P Unit := do
  modify (Conn.assign .protocol)
  greet N fuel

def enterConnected (fuel : Nat) : Method T P Unit := do
  let c ← get
  match T.init c.fd c.transportConfig c.world with
  | (none, w) => modify (Conn.initFailed N · w)
  | (some e, w) =>
      modify (Conn.initialised · e w)
      if T.handshakeStep.isSome then modify (Conn.assign .transport)
      else
        modify (Conn.subscribe N true false)
        enterProtocol N fuel

def stepInProgress (fuel : Nat) (ev : Event) : Method T P Unit := do
  if ev.writeable then
    let c ← get
    let ((ret, err), w) := N.getsockopt c.fd c.world
    modify (Conn.polled · ret err w)
    if ret = -1 then modify (Conn.enterError N)
    else if err ≠ 0 then modify (Conn.enterError N)
    else enterConnected N fuel
  else if ev.error ∨ ev.close then modify (Conn.enterError N)

def stepTransport (fuel : Nat) : Method T P Unit := do
  match T.handshakeStep with
  | none => pure ()
  | some f =>
      let status ← endpointHandshakeStep f
      if status = .ok then enterProtocol N fuel
      else if status = .close then modify (Conn.enterError N)
      else arm N status

/-- One turn of the loop in `protocol_consume`. -/
def consumeTurn (fuel : Nat) : Method T P (Option Unit) := do
  let c ← get
  let before := c.rx.rsize
  if before = 0 then return some ()
  bindProtocol N fuel .onData P.onData
  let c ← get
  if c.state ≠ .protocol then return some ()
  else if before ≤ c.rx.rsize then return some ()
  else return none

def protocolConsume (fuel : Nat) : Method T P Unit := Prog.iterate (consumeTurn N fuel) fuel

/-- One turn of the loop in `transport_read`. -/
def readTurn (consume : Method T P Bool) (onClose : Method T P Unit) :
    Method T P (Option Unit) := do
  let c ← get
  if c.rx.full then
    modify fun c => c.log (.overflow c.rx)
    modify (Conn.enterError N)
    return some ()
  let before := c.rx.rsize
  let status ← endpointRead
  let c ← get
  let more ← (if c.rx.rsize ≠ before then consume else pure true : Method T P Bool)
  if more then
    match status with
    | .ok => return none
    | .close =>
        onClose
        return some ()
    | .wantRead | .wantWrite =>
        arm N status
        return some ()
    | .error =>
        modify (Conn.enterError N)
        return some ()
  else
    return some ()

def transportRead (fuel : Nat) (consume : Method T P Bool) (onClose : Method T P Unit) :
    Method T P Unit := Prog.iterate (readTurn N consume onClose) fuel

/-- The `consume` argument of `step_Protocol`. -/
def consumeProtocol (fuel : Nat) : Method T P Bool := do
  protocolConsume N fuel
  let c ← get
  return c.state = .protocol

def stepProtocol (fuel : Nat) (ev : Event) : Method T P Unit := do
  (if ev.readable then transportRead N fuel (consumeProtocol N fuel) enterCloseTransport
    else pure () : Method T P Unit)
  if ev.writeable then let _ ← transportWrite N fuel

/-- One turn of the loop in the `consume` argument of `step_close_protocol`. -/
def closeTurn (fuel : Nat) (f : Protocol.Handler P.Session ω) : Method T P (Option Bool) := do
  let c ← get
  let before := c.rx.rsize
  match ← sessionHandler .onShutdown f with
  | .ok =>
      let _ ← transportWrite N fuel
      let c ← get
      if c.state ≠ .closeProtocol then return some false
      else if before ≤ c.rx.rsize then return some true
      else return none
  | .close =>
      modify (Conn.assign .drainProtocol)
      return some false
  | .error =>
      modify (Conn.enterError N)
      return some false

/-- The `consume` argument of `step_close_protocol`. -/
def consumeClose (fuel : Nat) : Method T P Bool := do
  match P.onShutdown with
  | some f => Prog.iterate (closeTurn N fuel f) fuel
  | none =>
      modify (Conn.assign .drainProtocol)
      return false

def stepCloseProtocol (fuel : Nat) (ev : Event) : Method T P Unit := do
  (if ev.readable then transportRead N fuel (consumeClose N fuel) enterCloseTransport
    else pure () : Method T P Unit)
  if ev.writeable then let _ ← transportWrite N fuel

def stepDrainProtocol (fuel : Nat) (ev : Option Event) : Method T P Unit := do
  (if (ev.map Event.readable).getD false then do
      transportRead N fuel (pure true) (pure ())
      modify fun c => { c with rx := c.rx.clear }
    else pure () : Method T P Unit)
  if ← transportWrite N fuel false then enterCloseTransport

def stepCloseTransport : Method T P Unit := do
  match T.shutdownStep with
  | some f =>
      let status ← endpointShutdownStep f
      match status with
      | .ok => modify (Conn.enterClosed N)
      | .error | .close => modify (Conn.enterError N)
      | .wantRead | .wantWrite => arm N status
  | none => modify (Conn.enterClosed N)

/-- One turn of the loop in `steps`. -/
def stepsTurn (fuel : Nat) (ev : Option Event) : Method T P (Option Unit) := do
  let c ← get
  let before := c.state
  let settle (step : Method T P Unit) : Method T P (Option Unit) := do
    step
    let c ← get
    return if c.state = before then some () else none
  match before with
  | .uninitialized =>
      modify (Conn.log · .unreachable)
      failure
  | .inProgress =>
      match ev with
      | none => return some ()
      | some ev => settle (stepInProgress N fuel ev)
  | .transport => settle (stepTransport N fuel)
  | .protocol =>
      match ev with
      | none => return some ()
      | some ev => settle (stepProtocol N fuel ev)
  | .closeProtocol =>
      match ev with
      | none => return some ()
      | some ev => settle (stepCloseProtocol N fuel ev)
  | .drainProtocol => settle (stepDrainProtocol N fuel ev)
  | .closeTransport => settle (stepCloseTransport N)
  | .closed | .error => return some ()

def steps (fuel : Nat) (ev : Option Event) : Method T P Unit :=
  Prog.iterate (stepsTurn N fuel ev) fuel

/-- `_state = uninitialized`, with both buffers cleared. -/
def Conn.begin (c : Conn T P) : Conn T P :=
  { c.log .begin with state := .uninitialized, rx := c.rx.clear, tx := c.tx.clear }

/-- `net::dial`, and `_fd` takes its result. -/
def Conn.dial (c : Conn T P) : DialResult × Conn T P :=
  let (result, w, calls) := Net.dial N c.host c.port c.world
  (result, { c with
    world := w
    fd := result.fd
    history := (c.state, .adopt result.fd) ::
      (calls.map fun call => (c.state, Act.net call)) ++ c.history })

/-- `enter_uninitialized` once `net::dial` has returned. -/
def afterDial (fuel : Nat) (result : DialResult) : Method T P Unit := do
  if result.fd = -1 then modify (Conn.assign .error)
  else if result.err = some .einprogress then
    modify (Conn.assign .inProgress)
    modify (Conn.subscribe N false true)
  else
    enterConnected N fuel
    steps N fuel none

def enterUninitialized (fuel : Nat) : Method T P Unit := do
  modify Conn.begin
  let c ← get
  modify fun c => (c.dial N).2
  afterDial N fuel (c.dial N).1

/-! ## Entry points -/

def attach (fuel : Nat) (cookie : Nat) : Method T P Unit := do
  let c ← get
  if c.cookie ≠ 0 then return
  modify fun c => { c with cookie := cookie }
  enterUninitialized N fuel

def handleEvent (fuel : Nat) (ev : Event) : Method T P Unit := steps N fuel (some ev)

def heartbeat (fuel : Nat) : Method T P Unit := do
  match P.heartbeat with
  | none => pure ()
  | some f =>
      let c ← get
      if c.state = .protocol then
        sessionHeartbeat f
        let _ ← transportWrite N fuel

/-- `_protocol = Session{_host, _port, _protocol_config}` -/
def Conn.renew (c : Conn T P) : Conn T P :=
  { c with protocol := P.session c.host c.port c.protocolConfig }

def restart (fuel : Nat) : Method T P Unit := do
  let c ← get
  if c.done then
    modify (Conn.teardown N)
    modify Conn.renew
    enterUninitialized N fuel

def stop (fuel : Nat) : Method T P Unit := do
  let c ← get
  (match c.state with
    | .uninitialized | .inProgress => modify (Conn.enterClosed N)
    | .transport => enterCloseTransport
    | .protocol => enterCloseProtocol N fuel
    | _ => pure () : Method T P Unit)
  steps N fuel none

def destruct : Method T P Unit := modify (Conn.teardown N)

def enter (fuel : Nat) (entry : Entry) : Method T P Unit := do
  modify (Conn.log · (.enter entry))
  match entry with
  | .attach cookie => attach N fuel cookie
  | .handleEvent ev => handleEvent N fuel ev
  | .heartbeat => heartbeat N fuel
  | .stop => stop N fuel
  | .restart => restart N fuel
  | .destruct => destruct N

/-- Entry points one after the other, until one does not return or the connection
is destructed. -/
def exec (fuel : Nat) : List Entry → Method T P Unit
  | [] => pure ()
  | .destruct :: _ => enter N fuel .destruct
  | entry :: later => do
      enter N fuel entry
      exec fuel later

end Methods

end Manet.Reactor
