/-
# Manet.Reactor.Termination — every call comes back

The loops of a connection end for three reasons.  `transport_write` goes on only when the write
took something, and the loops over a session's handlers only when the handler consumed something:
unread bytes, of which there are as many as the buffer holds.  `steps` goes on only when the state
has changed, and within one step it changes to a later one.  `transport_read` goes on as long as
the transport answers `ok`; so that is asked of the transport, that it answers `ok` finitely often
(`calls_return`).

`Spent K` is where a loop with too few turns would have stopped: after `K` such answers.
-/
import Manet.Reactor.Overflow
import Manet.Reactor.Quiet

namespace Manet.Reactor

open Manet.Flow Manet.Net Relation

set_option autoImplicit false

variable {ω : Type} {N : Backend ω} {T : Transport.Layer ω} {P : Protocol.Layer ω}

/-- How often a read has been answered `ok`. -/
def okReads (h : History) : Nat :=
  h.countP fun entry =>
    match entry.2 with
    | .read .ok _ _ => true
    | _ => false

/-- The transport and the session return from every call, and stay within their windows. -/
structure Cooperates (T : Transport.Layer ω) (P : Protocol.Layer ω) : Prop where
  within : T.Within
  drains : T.Drains
  answers : T.Answers
  handles : P.Within
  replies : P.Answers

/-- Both buffers are valid, and the state meets `p`. -/
structure Lands (p : State → Prop) (c : Conn T P) : Prop where
  valid : Io.Valid ⟨c.rx, c.tx⟩
  state : p c.state

theorem Lands.imp {p q : State → Prop} {c : Conn T P} (lands : Lands p c)
    (implies : ∀ s, p s → q s) : Lands q c := ⟨lands.valid, implies _ lands.state⟩

theorem lands_assign {s : State} {p : State → Prop} {c : Conn T P} (valid : Io.Valid ⟨c.rx, c.tx⟩)
    (state : p s) : Lands p (c.assign s) := ⟨valid, state⟩

theorem lands_enterError {p : State → Prop} {c : Conn T P} (valid : Io.Valid ⟨c.rx, c.tx⟩)
    (state : p .error) : Lands p (c.enterError N) := by
  constructor
  · rw [Conn.enterError, Conn.teardown_rx, Conn.teardown_tx]
    exact valid
  · rw [Conn.enterError_state]
    exact state

theorem lands_enterClosed {p : State → Prop} {c : Conn T P} (valid : Io.Valid ⟨c.rx, c.tx⟩)
    (state : p .closed) : Lands p (c.enterClosed N) := by
  constructor
  · rw [Conn.enterClosed, Conn.teardown_rx, Conn.teardown_tx]
    exact valid
  · rw [Conn.enterClosed_state]
    exact state

/-- There are at most as many unread bytes as the buffer holds. -/
theorem Buffer.rsize_le {cap : Nat} {b : Buffer cap} (valid : b.Valid) : b.rsize ≤ cap := by
  have size := Buffer.rsize_eq valid
  have bounded := valid.bounded
  omega

/-- Still `s`, or as late as `r`. -/
def From (s : State) (r : Nat) (s' : State) : Prop := s' = s ∨ r ≤ s'.rank

/-- One landing after the other. -/
theorem Lands.after {s : State} {r r' : Nat} {c c' : Conn T P} (landed : Lands (From c.state r') c')
    (first : From s r c.state) (later : r ≤ r') : Lands (From s r) c' := by
  refine landed.imp fun s' moved => ?_
  rcases moved with rfl | late
  · exact first
  · exact .inr (Nat.le_trans later late)

theorem Lands.late {s : State} {r r' : Nat} {c : Conn T P} (landed : Lands (From s r) c)
    (early : r' ≤ s.rank) (later : r' ≤ r) : Lands (fun s' => r' ≤ s'.rank) c := by
  refine landed.imp fun s' moved => ?_
  rcases moved with rfl | late
  · exact early
  · exact Nat.le_trans later late

section Methods

variable {G : Conn T P → Prop} {c : Conn T P}

theorem sessionHandler_ends {kind : Protocol.HandlerKind} {f : Protocol.Handler P.Session ω}
    (within : Protocol.Handler.Within f) (replies : ∀ s io w, f s io w ≠ none)
    (valid : Io.Valid ⟨c.rx, c.tx⟩) :
    Ends G (sessionHandler kind f : Method T P _) c fun _ c' => Lands (· = c.state) c' := by
  refine ends_get_bind ?_
  rcases answered : f c.protocol ⟨c.rx, c.tx⟩ c.world with _ | ⟨status, s, io, w⟩
  · exact absurd answered (replies _ _ _)
  · exact ends_modify_bind (ends_pure ⟨within answered valid, rfl⟩)

theorem arm_ends (status : Transport.Status) (valid : Io.Valid ⟨c.rx, c.tx⟩) :
    Ends G (arm N status) c fun _ c' => Lands (From c.state 7) c' := by
  cases status with
  | ok | close => exact ends_pure ⟨valid, .inl rfl⟩
  | wantRead | wantWrite => exact ends_modify ⟨valid, .inl rfl⟩
  | error => exact ends_modify (lands_enterError valid (.inr (Nat.le_refl 7)))

variable (good : Cooperates T P)

include good

/-! ## Calls on the endpoint and the session -/

theorem endpointHandshakeStep_ends {f : T.Endpoint → ω → Option (Transport.Status × T.Endpoint × ω)}
    (declared : T.handshakeStep = some f) (valid : Io.Valid ⟨c.rx, c.tx⟩) :
    Ends G (endpointHandshakeStep f) c fun _ c' => Lands (· = c.state) c' := by
  refine ends_get_bind ?_
  rcases answered : f c.transport c.world with _ | ⟨status, e, w⟩
  · exact absurd answered (good.answers.handshakeStep f declared _ _)
  · exact ends_modify_bind (ends_pure ⟨valid, rfl⟩)

theorem endpointShutdownStep_ends {f : T.Endpoint → ω → Option (Transport.Status × T.Endpoint × ω)}
    (declared : T.shutdownStep = some f) (valid : Io.Valid ⟨c.rx, c.tx⟩) :
    Ends G (endpointShutdownStep f) c fun _ c' => Lands (· = c.state) c' := by
  refine ends_get_bind ?_
  rcases answered : f c.transport c.world with _ | ⟨status, e, w⟩
  · exact absurd answered (good.answers.shutdownStep f declared _ _)
  · exact ends_modify_bind (ends_pure ⟨valid, rfl⟩)

/-- A write leaves at most as much as there was. -/
theorem endpointWrite_ends (valid : Io.Valid ⟨c.rx, c.tx⟩) :
    Ends G (endpointWrite : Method T P _) c fun _ c' =>
      Lands (· = c.state) c' ∧ c'.tx.rsize ≤ c.tx.rsize := by
  have valid' : c.tx.Valid := valid.tx
  refine ends_get_bind ?_
  rcases answered : T.write c.transport c.tx c.world with _ | ⟨status, e, tx, w⟩
  · exact absurd answered (good.answers.write _ _ _)
  refine ends_modify_bind (ends_pure ⟨⟨⟨valid.rx, good.within.write answered valid'⟩, rfl⟩, ?_⟩)
  obtain ⟨n, fits, rfl⟩ := good.drains answered valid'
  have shorter := Buffer.rsize_incRpos tx_small valid' fits
  show (c.tx.incRpos n).rsize ≤ c.tx.rsize
  omega

/-- A read that is answered `ok` counts. -/
theorem endpointRead_ends (valid : Io.Valid ⟨c.rx, c.tx⟩) :
    Ends G (endpointRead : Method T P _) c fun status c' =>
      Lands (· = c.state) c' ∧
        okReads c'.history = okReads c.history + if status = .ok then 1 else 0 := by
  refine ends_get_bind ?_
  rcases answered : T.read c.transport c.rx c.world with _ | ⟨status, e, rx, w⟩
  · exact absurd answered (good.answers.read _ _ _)
  refine ends_modify_bind (ends_pure ⟨⟨⟨good.within.read answered valid.rx, valid.tx⟩, rfl⟩, ?_⟩)
  cases status <;> simp [Conn.didRead, Conn.log, okReads]

theorem onShutdown_ends {f : Protocol.Handler P.Session ω} (declared : P.onShutdown = some f)
    (valid : Io.Valid ⟨c.rx, c.tx⟩) :
    Ends G (sessionHandler .onShutdown f : Method T P _) c fun _ c' => Lands (· = c.state) c' :=
  sessionHandler_ends (good.handles.onShutdown f declared) (good.replies.onShutdown f declared) valid

/-! ## The loops over unread bytes -/

theorem writeTurn_ends {s : State} (lands : Lands (· = s) c) :
    Ends G (writeTurn N) c
      (Turn (fun c' => Lands (· = s) c' ∧ c'.tx.rsize < c.tx.rsize)
        fun _ c' => Lands (From s 6) c') := by
  have stay := lands.imp (q := From s 6) fun _ => .inl
  refine ends_get_bind ?_
  split
  · exact ends_pure stay
  refine (endpointWrite_ends good lands.valid).bind ?_
  rintro status c₁ ⟨lands₁, shorter⟩
  have state₁ : c₁.state = s := lands₁.state.trans lands.state
  have armed : ∀ status, Ends G (do arm N status; return some false : Method T P (Option Bool)) c₁
      (Turn (fun c' => Lands (· = s) c' ∧ c'.tx.rsize < c.tx.rsize)
        fun _ c' => Lands (From s 6) c') := by
    intro status
    refine (arm_ends status lands₁.valid).bind fun _ c₂ lands₂ => ends_pure ?_
    exact lands₂.after (.inl state₁) (by omega)
  refine ends_get_bind ?_
  split
  · exact ends_modify_bind (ends_pure (lands_assign lands₁.valid (.inr (Nat.le_refl 6))))
  split
  · exact armed status
  split
  · exact armed .wantWrite
  · rename_i took
    exact ends_pure ⟨⟨lands₁.valid, state₁⟩, by omega⟩

variable {fuel : Nat} (ample : RX_CAP + TX_CAP + 9 ≤ fuel)

include ample

theorem transportWrite_ends (reArm : Bool) (valid : Io.Valid ⟨c.rx, c.tx⟩) :
    Ends G (transportWrite N fuel reArm) c fun _ c' => Lands (From c.state 6) c' := by
  have bound : c.tx.rsize ≤ TX_CAP := Buffer.rsize_le valid.tx
  refine (ends_measure (Lands (· = c.state)) (fun c => c.tx.rsize)
    (fun _ => writeTurn_ends good) ⟨valid, rfl⟩ (by omega)).bind ?_
  rintro (_ | _) c' lands
  · exact ends_pure lands
  · refine ends_get_bind ?_
    split
    · exact ends_modify_bind (ends_pure ⟨lands.valid, lands.state⟩)
    · exact ends_pure lands

theorem partingTurn_ends {α : Type} {f : Protocol.Handler P.Session ω}
    (declared : P.onShutdown = some f) (gone stuck : α) (lands : Lands (· = .closeProtocol) c) :
    Ends G (partingTurn N fuel gone stuck f) c
      (Turn (fun c' => Lands (· = .closeProtocol) c' ∧ c'.rx.rsize < c.rx.rsize)
        fun _ c' => Lands (From .closeProtocol 5) c') := by
  refine ends_get_bind ((onShutdown_ends good declared lands.valid).bind ?_)
  rintro status c₁ lands₁
  have state₁ : c₁.state = .closeProtocol := lands₁.state.trans lands.state
  cases status with
  | ok =>
      refine (transportWrite_ends good ample true lands₁.valid).bind fun _ c₂ lands₂ => ?_
      have left : Lands (From .closeProtocol 5) c₂ := lands₂.after (.inl state₁) (by decide)
      refine ends_get_bind ?_
      split
      · exact ends_pure left
      · rename_i stays
        split
        · exact ends_pure left
        · exact ends_pure ⟨⟨lands₂.valid, not_not.mp stays⟩, by omega⟩
  | close => exact ends_modify_bind (ends_pure (lands_assign lands₁.valid (.inr (Nat.le_refl 5))))
  | error => exact ends_modify_bind (ends_pure (lands_enterError lands₁.valid (.inr (by decide))))

/-- Either loop over `on_shutdown`. -/
theorem partingLoop_ends {α : Type} {f : Protocol.Handler P.Session ω}
    (declared : P.onShutdown = some f) (gone stuck : α) (lands : Lands (· = .closeProtocol) c) :
    Ends G (Prog.iterate (partingTurn N fuel gone stuck f) fuel) c
      fun _ c' => Lands (From .closeProtocol 5) c' := by
  have bound : c.rx.rsize ≤ RX_CAP := Buffer.rsize_le lands.valid.rx
  exact ends_measure (Lands (· = .closeProtocol)) (fun c => c.rx.rsize)
    (fun _ => partingTurn_ends good ample declared gone stuck) lands (by omega)

theorem enterCloseProtocol_ends (valid : Io.Valid ⟨c.rx, c.tx⟩) :
    Ends G (enterCloseProtocol N fuel) c fun _ c' => Lands (fun s' => 4 ≤ s'.rank) c' := by
  unfold enterCloseProtocol
  split
  · rename_i f declared
    have lands : Lands (· = .closeProtocol) (c.assign .closeProtocol) := ⟨valid, rfl⟩
    refine ends_modify_bind ((partingLoop_ends good ample declared () () lands).weaken ?_)
    exact fun _ c' landed => landed.late (Nat.le_refl 4) (by decide)
  · exact ends_modify (lands_assign valid (by decide))

theorem bindProtocol_ends {kind : Protocol.HandlerKind} {f : Protocol.Handler P.Session ω}
    (within : Protocol.Handler.Within f) (replies : ∀ s io w, f s io w ≠ none)
    (valid : Io.Valid ⟨c.rx, c.tx⟩) :
    Ends G (bindProtocol N fuel kind f) c fun _ c' => Lands (From c.state 4) c' := by
  refine (sessionHandler_ends within replies valid).bind ?_
  rintro status c₁ lands₁
  cases status with
  | ok =>
      refine (transportWrite_ends good ample true lands₁.valid).bind fun _ c₂ lands₂ => ends_pure ?_
      exact lands₂.after (.inl lands₁.state) (by omega)
  | close =>
      refine (transportWrite_ends good ample true lands₁.valid).bind fun _ c₂ lands₂ => ?_
      split
      · refine ends_get_bind ?_
        split
        · exact (enterCloseProtocol_ends good ample lands₂.valid).weaken fun _ c' lands' =>
            lands'.imp fun _ => .inr
        · exact ends_modify (lands_assign lands₂.valid (.inr (by decide)))
      · refine (transportWrite_ends good ample true lands₂.valid).bind ?_
        rintro (_ | _) c₃ lands₃
        · exact ends_modify (lands_assign lands₃.valid (.inr (by decide)))
        · exact ends_modify (lands_assign lands₃.valid (.inr (by decide)))
  | error => exact ends_modify (lands_enterError lands₁.valid (.inr (by decide)))

theorem enterProtocol_ends (valid : Io.Valid ⟨c.rx, c.tx⟩) :
    Ends G (enterProtocol N fuel) c fun _ c' => Lands (fun s' => 3 ≤ s'.rank) c' := by
  refine ends_modify_bind ?_
  unfold greet
  split
  · rename_i f declared
    refine (bindProtocol_ends good ample (good.handles.onConnect f declared)
      (good.replies.onConnect f declared) (c := c.assign .protocol) valid).weaken ?_
    exact fun _ c' landed => landed.late (Nat.le_refl 3) (by decide)
  · refine (transportWrite_ends good ample true (c := c.assign .protocol) valid).bind ?_
    exact fun _ c' landed => ends_pure (landed.late (Nat.le_refl 3) (by decide))

theorem enterConnected_ends (valid : Io.Valid ⟨c.rx, c.tx⟩) :
    Ends G (enterConnected N fuel) c fun _ c' => Lands (fun s' => 2 ≤ s'.rank) c' := by
  refine ends_get_bind ?_
  split
  · rename_i w _
    refine ends_modify ⟨?_, ?_⟩
    · rw [Conn.initFailed_rx, Conn.initFailed_tx]
      exact valid
    · rw [Conn.initFailed_state]
      decide
  rename_i e w _
  refine ends_modify_bind ?_
  split
  · exact ends_modify (lands_assign valid (by decide))
  · refine ends_modify_bind ?_
    have lands : Io.Valid ⟨((c.initialised e w).subscribe N true false).rx, _⟩ := valid
    refine (enterProtocol_ends good ample lands).weaken ?_
    exact fun _ c' landed => landed.imp fun _ late => by omega

theorem consumeProtocol_ends (lands : Lands (· = .protocol) c) :
    Ends G (consumeProtocol N fuel) c fun _ c' => Lands (From .protocol 4) c' := by
  have bound : c.rx.rsize ≤ RX_CAP := Buffer.rsize_le lands.valid.rx
  have turn : ∀ c : Conn T P, Lands (· = .protocol) c → Ends G (consumeTurn N fuel) c
      (Turn (fun c' => Lands (· = .protocol) c' ∧ c'.rx.rsize < c.rx.rsize)
        fun _ c' => Lands (From .protocol 4) c') := by
    intro c lands
    have stay := lands.imp (q := From .protocol 4) fun _ => .inl
    unfold consumeTurn
    refine ends_get_bind ?_
    dsimp only
    split
    · exact ends_pure stay
    refine (bindProtocol_ends good ample good.handles.onData good.replies.onData lands.valid).bind ?_
    intro _ c₁ lands₁
    have left := lands₁.after (.inl lands.state) (Nat.le_refl 4)
    refine ends_get_bind ?_
    split
    · exact ends_pure left
    · rename_i stays
      split
      · exact ends_pure left
      · exact ends_pure ⟨⟨lands₁.valid, not_not.mp stays⟩, by omega⟩
  refine (ends_measure (Lands (· = .protocol)) (fun c => c.rx.rsize) turn lands (by omega)).bind ?_
  exact fun _ c' landed => ends_get_bind (ends_pure landed)

theorem consumeClose_ends (lands : Lands (· = .closeProtocol) c) :
    Ends G (consumeClose N fuel) c fun _ c' => Lands (From .closeProtocol 5) c' := by
  unfold consumeClose
  split
  · rename_i f declared
    exact partingLoop_ends good ample declared false true lands
  · exact ends_modify_bind (ends_pure (lands_assign lands.valid (.inr (Nat.le_refl 5))))

theorem heartbeat_ends (valid : Io.Valid ⟨c.rx, c.tx⟩) :
    Ends G (heartbeat N fuel) c fun _ _ => True := by
  unfold heartbeat
  split
  · exact ends_pure trivial
  rename_i f declared
  refine ends_get_bind ?_
  split
  swap
  · exact ends_pure trivial
  refine Ends.bind (Q := fun _ c₁ => Io.Valid ⟨c₁.rx, c₁.tx⟩) ?_ fun _ c₁ valid₁ => ?_
  · refine ends_get_bind ?_
    rcases answered : f c.protocol c.tx c.world with _ | ⟨s, tx, w⟩
    · exact absurd answered (good.replies.heartbeat f declared _ _ _)
    · exact ends_modify ⟨valid.rx, good.handles.heartbeat f declared answered valid.tx⟩
  · exact (transportWrite_ends good ample true valid₁).bind fun _ _ _ => ends_pure trivial

/-! ## The loop over reads -/

/-- `K` reads have been answered `ok`. -/
def Spent (K : Nat) (c : Conn T P) : Prop := K ≤ okReads c.history

omit good ample in
theorem okReads_le {r : Bool} {c c' : Conn T P} (path : ReflTransGen (Quiet r) c c') :
    okReads c.history ≤ okReads c'.history :=
  (quiet_path path).grown.sublist.countP_le

section Reading

variable {K r : Nat} {s : State} {consume : Method T P Bool} {onClose : Method T P Unit}
  (consumes : ∀ c, Lands (· = s) c → Ends (Spent K) consume c fun _ c' => Lands (From s r) c')
  (quiet : Walks (Quiet false) consume) (continues : Continues s consume)
  (closes : ∀ c, Lands (· = s) c → Ends (Spent K) onClose c fun _ c' => Lands (From s r) c')

include consumes quiet continues closes

omit good ample in
/-- A turn of `transport_read` from its read on, for a session's turn that stays or goes as far as
`r`.  It goes on only after a read that is answered `ok`. -/
theorem afterRead_ends (early : r ≤ 6) (before : Nat) (status : Transport.Status)
    (lands : Lands (· = s) c) :
    Ends (Spent K) (afterRead N consume onClose before status) c
      (Turn (fun c' => Lands (· = s) c' ∧ status = .ok ∧ okReads c.history ≤ okReads c'.history)
        fun _ c' => Lands (From s r) c') := by
  refine ends_get_bind (Ends.bind (Q := fun more c₁ => Lands (From s r) c₁ ∧
    (more = true → c₁.state = s) ∧ okReads c.history ≤ okReads c₁.history) ?_ ?_)
  · split
    · refine (consumes c lands).returned.weaken ?_
      rintro more c₁ ⟨lands₁, executed⟩
      have path := (quiet c).1
      rw [executed] at path
      exact ⟨lands₁, (continues lands.state executed).mp, okReads_le path⟩
    · exact ends_pure ⟨lands.imp fun _ => .inl, fun _ => lands.state, Nat.le_refl _⟩
  rintro more c₁ ⟨lands₁, going, grown⟩
  cases more with
  | false =>
      rw [if_neg (by simp)]
      exact ends_pure lands₁
  | true =>
      rw [if_pos rfl]
      have stay : Lands (· = s) c₁ := ⟨lands₁.valid, going rfl⟩
      cases status with
      | ok => exact ends_pure ⟨stay, rfl, grown⟩
      | close => exact (closes c₁ stay).bind fun _ c₂ lands₂ => ends_pure lands₂
      | error =>
          have late : r ≤ State.rank .error := by show r ≤ 7; omega
          exact ends_modify_bind (ends_pure (lands_enterError lands₁.valid (.inr late)))
      | wantRead | wantWrite =>
          refine (arm_ends _ lands₁.valid).bind fun _ c₂ lands₂ => ends_pure ?_
          exact lands₂.after lands₁.state (by omega)

omit ample in
/-- A turn of `transport_read`: it goes on with one more read that counts. -/
theorem readTurn_ends (early : r ≤ 6) {n : Nat} (lands : Lands (· = s) c)
    (left : K ≤ okReads c.history + (n + 1)) :
    Ends (Spent K) (readTurn N consume onClose) c
      (Turn (fun c' => Lands (· = s) c' ∧ K ≤ okReads c'.history + n)
        fun _ c' => Lands (From s r) c') := by
  refine ends_get_bind ?_
  split
  · have late : r ≤ State.rank .error := by show r ≤ 7; omega
    exact ends_modify_bind (ends_modify_bind
      (ends_pure (lands_enterError lands.valid (.inr late))))
  refine (endpointRead_ends good lands.valid).bind ?_
  rintro status c₁ ⟨lands₁, counted⟩
  refine (afterRead_ends consumes quiet continues closes early _ status
    ⟨lands₁.valid, lands₁.state.trans lands.state⟩).weaken fun _ c₂ turn => turn.imp ?_ fun _ => id
  rintro ⟨lands₂, rfl, grown⟩
  rw [if_pos rfl] at counted
  exact ⟨lands₂, by omega⟩

omit ample in
/-- **`transport_read`** in state `s`. -/
theorem transportRead_ends (enough : K ≤ fuel) (early : r ≤ 6) (lands : Lands (· = s) c) :
    Ends (Spent K) (transportRead N fuel consume onClose) c fun _ c' => Lands (From s r) c' := by
  refine ends_iterate (fun n c => Lands (· = s) c ∧ K ≤ okReads c.history + n) ?_ ?_ fuel c
    ⟨lands, by omega⟩
  · rintro n c ⟨lands, left⟩
    exact readTurn_ends good consumes quiet continues closes early lands left
  · rintro c ⟨-, spent⟩
    exact spent

end Reading

/-! ## The steps -/

theorem stepInProgress_ends (ev : Event) (lands : Lands (· = .inProgress) c) :
    Ends G (stepInProgress N fuel ev) c fun _ c' => Lands (From .inProgress 2) c' := by
  have failed : ∀ c : Conn T P, Io.Valid ⟨c.rx, c.tx⟩ →
      Ends G (modify (Conn.enterError N)) c fun _ c' => Lands (From .inProgress 2) c' := by
    intro c valid
    exact ends_modify (lands_enterError valid (.inr (by decide)))
  unfold stepInProgress
  split
  · refine ends_get_bind ?_
    split
    refine ends_modify_bind ?_
    split
    · exact failed _ lands.valid
    split
    · exact failed _ lands.valid
    · rename_i ret err w _ _ _
      have valid : Io.Valid ⟨(c.polled ret err w).rx, (c.polled ret err w).tx⟩ := lands.valid
      exact (enterConnected_ends good ample valid).weaken fun _ c' landed => landed.imp fun _ => .inr
  split
  · exact failed c lands.valid
  · exact ends_pure (lands.imp fun _ => .inl)

theorem stepTransport_ends (lands : Lands (· = .transport) c) :
    Ends G (stepTransport N fuel) c fun _ c' => Lands (From .transport 3) c' := by
  unfold stepTransport
  split
  · exact ends_pure (lands.imp fun _ => .inl)
  rename_i f declared
  refine (endpointHandshakeStep_ends good declared lands.valid).bind fun status c₁ lands₁ => ?_
  split
  · exact (enterProtocol_ends good ample lands₁.valid).weaken fun _ c' landed =>
      landed.imp fun _ => .inr
  split
  · exact ends_modify (lands_enterError lands₁.valid (.inr (by decide)))
  · refine (arm_ends status lands₁.valid).weaken fun _ c' landed => ?_
    exact landed.after (.inl (lands₁.state.trans lands.state)) (by decide)

omit ample in
theorem stepCloseTransport_ends (lands : Lands (· = .closeTransport) c) :
    Ends G (stepCloseTransport N) c fun _ c' => Lands (From .closeTransport 7) c' := by
  have closed : ∀ c : Conn T P, Io.Valid ⟨c.rx, c.tx⟩ →
      Ends G (modify (Conn.enterClosed N)) c fun _ c' => Lands (From .closeTransport 7) c' := by
    intro c valid
    exact ends_modify (lands_enterClosed valid (.inr (Nat.le_refl 7)))
  unfold stepCloseTransport
  split
  · rename_i f declared
    refine (endpointShutdownStep_ends good declared lands.valid).bind fun status c₁ lands₁ => ?_
    cases status with
    | ok => exact closed c₁ lands₁.valid
    | error | close => exact ends_modify (lands_enterError lands₁.valid (.inr (Nat.le_refl 7)))
    | wantRead | wantWrite =>
        refine (arm_ends _ lands₁.valid).weaken fun _ c' landed => ?_
        exact landed.after (.inl (lands₁.state.trans lands.state)) (Nat.le_refl 7)
  · exact closed c lands.valid

variable {K : Nat} (enough : K ≤ fuel)

include enough

/-- A step of a state in which the session is called: read, then write. -/
theorem readWrite_ends {r : Nat} {s : State} (early : r ≤ 6) {consume : Method T P Bool} {ev : Event}
    (consumes : ∀ c, Lands (· = s) c → Ends (Spent K) consume c fun _ c' => Lands (From s r) c')
    (quiet : Walks (Quiet false) consume) (continues : Continues s consume)
    (lands : Lands (· = s) c) :
    Ends (Spent K) (do
      (if ev.readable then transportRead N fuel consume enterCloseTransport
        else pure () : Method T P Unit)
      if ev.writeable then let _ ← transportWrite N fuel : Method T P Unit) c
      fun _ c' => Lands (From s r) c' := by
  have closes : ∀ c : Conn T P, Lands (· = s) c →
      Ends (Spent K) enterCloseTransport c fun _ c' => Lands (From s r) c' := by
    intro c lands
    exact ends_modify (lands_assign lands.valid (.inr (by show r ≤ 6; omega)))
  refine Ends.bind (Q := fun _ c₁ => Lands (From s r) c₁) ?_ ?_
  · split
    · exact transportRead_ends good consumes quiet continues closes enough early lands
    · exact ends_pure (lands.imp fun _ => .inl)
  intro _ c₁ lands₁
  split
  · refine (transportWrite_ends good ample true lands₁.valid).bind fun _ c₂ lands₂ => ends_pure ?_
    exact lands₂.after lands₁.state early
  · exact ends_pure lands₁

theorem stepDrainProtocol_ends (ev : Option Event) (lands : Lands (· = .drainProtocol) c) :
    Ends (Spent K) (stepDrainProtocol N fuel ev) c fun _ c' => Lands (From .drainProtocol 6) c' := by
  refine Ends.bind (Q := fun _ c₁ => Lands (From .drainProtocol 6) c₁) ?_ ?_
  · split
    · have stay : ∀ {α : Type} (a : α) (c : Conn T P), Lands (· = .drainProtocol) c →
          Ends (Spent K) (pure a : Method T P α) c fun _ c' => Lands (From .drainProtocol 6) c' := by
        intro α a c lands
        exact ends_pure (lands.imp fun _ => .inl)
      have continues : Continues .drainProtocol (pure true : Method T P Bool) := by
        intro c c' more state executed
        cases executed
        simp [state]
      refine (transportRead_ends good (stay true) (walks_pure _) continues (stay ()) enough
        (Nat.le_refl 6) lands).bind fun _ c₁ lands₁ => ?_
      exact ends_modify ⟨⟨c₁.rx.clear_valid, lands₁.valid.tx⟩, lands₁.state⟩
    · exact ends_pure (lands.imp fun _ => .inl)
  intro _ c₁ lands₁
  refine (transportWrite_ends good ample false lands₁.valid).bind ?_
  rintro (_ | _) c₂ lands₂
  · exact ends_pure (lands₂.after lands₁.state (Nat.le_refl 6))
  · exact ends_modify (lands_assign lands₂.valid (.inr (Nat.le_refl 6)))

/-- One turn of `steps`: the state stays, and the loop ends, or it is a later one. -/
theorem stepsTurn_ends (ev : Option Event) (lands : Lands (· ≠ .uninitialized) c) :
    Ends (Spent K) (stepsTurn N fuel ev) c
      (Turn (fun c' => Lands (· ≠ .uninitialized) c' ∧ 7 - c'.state.rank < 7 - c.state.rank)
        fun _ _ => True) := by
  have settles : ∀ {s : State} {step : Method T P Unit},
      Ends (Spent K) step c (fun _ c' => Lands (From s (s.rank + 1)) c') →
      Ends (Spent K) (Prog.settle (fun c' => c'.state = s) step) c
        (Turn (fun c' => Lands (· ≠ .uninitialized) c' ∧ 7 - c'.state.rank < 7 - s.rank)
          fun _ _ => True) := by
    intro s step ends
    refine ends.settle.weaken fun _ c₁ turn => turn.imp ?_ fun _ _ => trivial
    rintro ⟨lands₁, other⟩
    have later := lands₁.state.resolve_left other
    have bound : c₁.state.rank ≤ 7 := by cases c₁.state <;> decide
    refine ⟨⟨lands₁.valid, fun fresh => ?_⟩, by omega⟩
    rw [fresh] at later
    exact absurd later (Nat.not_succ_le_zero _)
  have valid := lands.valid
  unfold stepsTurn
  refine ends_get_bind ?_
  cases state : c.state with
  | uninitialized => exact absurd state lands.state
  | inProgress =>
      cases ev with
      | none => exact ends_pure trivial
      | some ev => exact settles (stepInProgress_ends good ample ev ⟨valid, state⟩)
  | transport => exact settles (stepTransport_ends good ample ⟨valid, state⟩)
  | protocol =>
      cases ev with
      | none => exact ends_pure trivial
      | some ev =>
          exact settles (readWrite_ends good ample enough (by decide)
            (fun _ => consumeProtocol_ends good ample) (consumeProtocol_quiet fuel)
            (consumeProtocol_continues fuel) ⟨valid, state⟩)
  | closeProtocol =>
      cases ev with
      | none => exact ends_pure trivial
      | some ev =>
          exact settles (readWrite_ends good ample enough (by decide)
            (fun _ => consumeClose_ends good ample) (consumeClose_quiet fuel)
            (consumeClose_continues fuel) ⟨valid, state⟩)
  | drainProtocol => exact settles (stepDrainProtocol_ends good ample enough ev ⟨valid, state⟩)
  | closeTransport => exact settles (stepCloseTransport_ends good ⟨valid, state⟩)
  | closed | error => exact ends_pure trivial

theorem steps_ends (ev : Option Event) (lands : Lands (· ≠ .uninitialized) c) :
    Ends (Spent K) (steps N fuel ev) c fun _ _ => True := by
  refine ends_measure (Lands (· ≠ .uninitialized)) (fun c => 7 - c.state.rank)
    (fun _ => stepsTurn_ends good ample enough ev) lands ?_
  show 7 - c.state.rank < fuel
  omega

/-! ## The calls -/

theorem afterDial_ends (result : DialResult) (valid : Io.Valid ⟨c.rx, c.tx⟩) :
    Ends (Spent K) (afterDial N fuel result) c fun _ _ => True := by
  unfold afterDial
  split
  · exact ends_modify trivial
  split
  · exact ends_modify_bind (ends_modify trivial)
  · refine (enterConnected_ends good ample valid).bind fun _ c₁ lands₁ => ?_
    refine steps_ends good ample enough none (lands₁.imp fun s late => ?_)
    rintro rfl
    exact absurd late (by decide)

theorem enterUninitialized_ends : Ends (Spent K) (enterUninitialized N fuel) c fun _ _ => True := by
  refine ends_modify_bind (ends_get_bind (ends_modify_bind ?_))
  exact afterDial_ends good ample enough _ ⟨c.rx.clear_valid, c.tx.clear_valid⟩

theorem stop_ends (valid : Io.Valid ⟨c.rx, c.tx⟩) :
    Ends (Spent K) (stop N fuel) c fun _ _ => True := by
  refine ends_get_bind (Ends.bind (Q := fun _ c₁ => Lands (· ≠ .uninitialized) c₁) ?_ ?_)
  · cases state : c.state with
    | uninitialized | inProgress => exact ends_modify (lands_enterClosed valid (by decide))
    | transport => exact ends_modify (lands_assign valid (by decide))
    | protocol =>
        refine (enterCloseProtocol_ends good ample valid).weaken fun _ c₁ lands₁ => ?_
        refine lands₁.imp fun s late => ?_
        rintro rfl
        exact absurd late (by decide)
    | closeProtocol | drainProtocol | closeTransport | closed | error =>
        exact ends_pure ⟨valid, by simp [state]⟩
  · exact fun _ c₁ lands₁ => steps_ends good ample enough none lands₁

/-- **Any call** comes back, unless the reads have gone on for as long as there was fuel. -/
theorem enter_ends (entry : Entry) (valid : Io.Valid ⟨c.rx, c.tx⟩)
    (born : ∀ ev, entry = .handleEvent ev → c.state ≠ .uninitialized) :
    Ends (Spent K) (enter N fuel entry) c fun _ _ => True := by
  refine ends_modify_bind ?_
  cases entry with
  | attach k =>
      refine ends_get_bind ?_
      split
      · exact ends_pure trivial
      · exact ends_modify_bind (enterUninitialized_ends good ample enough)
  | handleEvent ev => exact steps_ends good ample enough (some ev) ⟨valid, born ev rfl⟩
  | heartbeat => exact heartbeat_ends good ample valid
  | stop => exact stop_ends good ample enough valid
  | restart =>
      refine ends_get_bind ?_
      split
      · exact ends_modify_bind (ends_modify_bind (enterUninitialized_ends good ample enough))
      · exact ends_pure trivial
  | destruct => exact ends_modify trivial

end Methods

/-! ## Runs -/

/-- Only calls from outside begin an epoch. -/
theorem Move.begun {c c' : Conn T P} (move : Move N False c c') (begun : c.state ≠ .uninitialized) :
    c'.state ≠ .uninitialized := by
  cases move with
  | enter _ _ outside | attach _ _ outside => exact outside.elim
  | restart _ _ _ outside => exact outside.elim
  | refused | dropped | overflow | fail =>
      rw [Conn.enterError_state]
      simp
  | finish | stop =>
      rw [Conn.enterClosed_state]
      simp
  | initFailed =>
      rw [Conn.initFailed_state]
      simp
  | dialFailed | dialPending | initHandshake | initPlain | enterProtocol | closeProtocol | drainProtocol
  | closeTransport => simp [Conn.assign, Conn.subscribe, Conn.log]
  | _ => exact begun

/-- An attached connection has begun. -/
def Begun (c : Conn T P) : Prop := c.cookie ≠ 0 → c.state ≠ .uninitialized

theorem heartbeat_begun {fuel : Nat} {c c' : Conn T P} (rest : Rest c)
    (returned : (enter N fuel .heartbeat).exec c = (some (), c')) :
    c' = c.log (.enter .heartbeat) ∨ c'.state ≠ .uninitialized := by
  have executed : (heartbeat N fuel).exec (c.log (.enter .heartbeat)) = (some (), c') := returned
  by_cases running : c.state = .protocol
  · right
    have path := (heartbeat_runs (N := N) (O := False) fuel (rest.entered (by simp)) rfl).1
    rw [executed] at path
    have keeps : ∀ c c' : Conn T P, Move N False c c' → c.state ≠ .uninitialized →
        c'.state ≠ .uninitialized := fun _ _ => Move.begun
    refine path_invariant keeps path ?_
    show c.state ≠ .uninitialized
    simp [running]
  · left
    unfold heartbeat at executed
    split at executed
    · cases executed
      rfl
    · have other : ¬ (c.log (.enter .heartbeat)).state = .protocol := running
      rw [Prog.exec_get_bind, if_neg other] at executed
      cases executed
      rfl

/-- What a call that returns leaves of it. -/
theorem enter_begun {fuel : Nat} {entry : Entry} (alive : entry ≠ .destruct) {c c' : Conn T P}
    (rest : Rest c) (begun : Begun c) (returned : (enter N fuel entry).exec c = (some (), c')) :
    Begun c' ∧ (c.state ≠ .uninitialized ∨ (∃ k, entry = .attach k) → c'.state ≠ .uninitialized) := by
  have settled := (enter_runs (N := N) fuel entry alive rest).2 ()
  rw [returned] at settled
  replace settled := (settled rfl).2
  have far : c'.state ≠ .uninitialized → Begun c' ∧
      (c.state ≠ .uninitialized ∨ (∃ k, entry = .attach k) → c'.state ≠ .uninitialized) :=
    fun state => ⟨fun _ => state, fun _ => state⟩
  have still : c' = c.log (.enter entry) → (∀ k, entry = .attach k → c.cookie ≠ 0) → Begun c' ∧
      (c.state ≠ .uninitialized ∨ (∃ k, entry = .attach k) → c'.state ≠ .uninitialized) := by
    rintro rfl attached
    refine ⟨begun, ?_⟩
    rintro (state | ⟨k, rfl⟩)
    · exact state
    · exact begun (attached k rfl)
  cases entry with
  | attach k =>
      by_cases zero : c.cookie = 0
      · exact far (settled zero).begun
      · refine still ?_ fun _ _ => zero
        have attached : (c.log (.enter (.attach k))).cookie ≠ 0 := zero
        unfold enter attach at returned
        rw [Prog.exec_modify_bind, Prog.exec_get_bind, if_pos attached] at returned
        cases returned
        rfl
  | handleEvent ev => exact far (settled trivial).begun
  | stop => exact far (settled trivial).begun
  | restart =>
      by_cases done : c.state.terminal = true
      · exact far (settled done).begun
      · refine still ?_ (by simp)
        have running : ¬ (c.log (.enter .restart)).done = true := by
          rw [Conn.done_eq_terminal]
          exact done
        unfold enter restart at returned
        rw [Prog.exec_modify_bind, Prog.exec_get_bind, if_neg running] at returned
        cases returned
        rfl
  | heartbeat =>
      rcases heartbeat_begun rest returned with same | state
      · exact still same (by simp)
      · exact far state
  | destruct => exact absurd rfl alive

/-- **Once attached, a connection is not `uninitialized` between two calls.** -/
theorem exec_begun {fuel : Nat} {entries : List Entry} (alive : .destruct ∉ entries) {c c' : Conn T P}
    (rest : Rest c) (begun : Begun c) (returned : (exec N fuel entries).exec c = (some (), c')) :
    (c.state ≠ .uninitialized ∨ ∃ k, .attach k ∈ entries) → c'.state ≠ .uninitialized := by
  induction entries generalizing c with
  | nil =>
      cases returned
      rintro (state | ⟨k, member⟩)
      · exact state
      · cases member
  | cons entry later ih =>
      obtain ⟨other, alive'⟩ := not_or.mp (List.mem_cons.not.mp alive)
      rw [exec_cons fuel (Ne.symm other)] at returned
      obtain ⟨u, c₁, first, after⟩ := Prog.exec_bind_returns returned
      have runs := enter_runs (N := N) fuel entry (Ne.symm other) rest
      unfold Runs at runs
      rw [first] at runs
      obtain ⟨begun₁, moved⟩ := enter_begun (Ne.symm other) rest begun first
      intro born
      refine ih alive' (runs.2 u rfl).1 begun₁ after ?_
      rcases born with state | ⟨k, member⟩
      · exact .inl (moved (.inl state))
      rcases List.mem_cons.mp member with same | member'
      · exact .inl (moved (.inr ⟨k, same.symm⟩))
      · exact .inr ⟨k, member'⟩

/-- **Every call returns.**  After any calls that returned, an attached connection (and any, for
another call than `handle_event`) returns from its next call: there is a number of turns that
suffices for all its loops, over every transport and for every session that stay within their
windows and return, as long as the transport's read is answered `ok` finitely often during the
call, however long it goes on.  In particular it does not come to the branch for `uninitialized`,
from which the model does not return. -/
theorem calls_return (good : Cooperates T P) (fuel₀ : Nat) (entries : List Entry) (host : String)
    (port : UInt16) (tc : T.Config) (pc : P.Config) (w : ω) (alive : .destruct ∉ entries)
    (call : Entry) :
    let run := (exec N fuel₀ entries).exec (Conn.make host port tc pc w : Conn T P)
    run.1 = some () → ((∀ ev, call ≠ .handleEvent ev) ∨ ∃ k, .attach k ∈ entries) →
      (∃ bound, ∀ fuel, okReads ((enter N fuel call).exec run.2).2.history ≤ bound) →
      ∃ enough, ∀ fuel, enough ≤ fuel → ((enter N fuel call).exec run.2).1 = some () := by
  intro run returned attached finite
  have executed : run = (some (), run.2) := Prod.ext returned rfl
  have rest : Rest (Conn.make host port tc pc w : Conn T P) := make_rest host port tc pc w
  have reached : Reached N _ entries run.1 run.2 := exec_reached fuel₀ entries rest
  have buffered : Buffered run.2 := reached.invariant
    (fun _ _ step => step.buffered good.within good.handles) (fun _ buffered => buffered.destructed)
    (make_buffered host port tc pc w)
  have born : ∀ ev, call = .handleEvent ev → run.2.state ≠ .uninitialized := by
    intro ev handles
    rcases attached with other | member
    · exact absurd handles (other ev)
    · exact exec_begun alive rest (fun attached => absurd rfl attached) executed (.inr member)
  obtain ⟨bound, finite⟩ := finite
  refine ⟨RX_CAP + TX_CAP + 9 + (bound + 1), fun fuel ample => ?_⟩
  have ends : Ends (Spent (bound + 1)) (enter N fuel call) run.2 fun _ _ => True :=
    enter_ends good (by omega) (by omega) call ⟨buffered.rx, buffered.tx⟩ born
  unfold Ends at ends
  have count := finite fuel
  rcases result : (enter N fuel call).exec run.2 with ⟨_ | _, c'⟩
  · rw [result] at ends count
    exact absurd ends (Nat.not_le_of_lt (Nat.lt_succ_of_le count))
  · rfl

theorem torrent_cooperates (size : Nat) : Cooperates (torrent : Transport.Layer ω) (framed size) where
  within := torrent_within
  drains := by
    intro e tx w status e' tx' w' answered valid
    cases answered
    exact ⟨0, Nat.zero_le _, (Buffer.incRpos_zero tx_small valid).symm⟩
  answers :=
    { handshakeStep := by simp [torrent]
      read := by simp [torrent]
      write := by simp [torrent]
      shutdownStep := by simp [torrent] }
  handles := framed_within size
  replies :=
    { onConnect := by simp [framed]
      onData := by simp [framed]
      onShutdown := by simp [framed]
      heartbeat := by simp [framed] }

/-- Frames of three bytes arrive, as many as RX holds: one read is answered `ok`, and the call
returns, having found RX at its end. -/
theorem calls_return_torrent :
    ∃ enough, ∀ fuel, enough ≤ fuel →
      ((enter scripted fuel (.handleEvent arrival)).exec ((exec scripted 9 [.attach 1]).exec
        (Conn.make "host" 80 () () {} : Conn torrent (framed 3))).2).1 = some () := by
  refine calls_return (N := scripted) (T := torrent) (P := framed 3) (torrent_cooperates 3) 9 [.attach 1]
    "host" 80 () () {} (by decide) (.handleEvent arrival) (by decide +kernel) (.inr ⟨1, by simp⟩) ⟨1, ?_⟩
  rintro (_ | _ | _ | _ | fuel)
  · decide +kernel
  · decide +kernel
  · decide +kernel
  · decide +kernel
  · exact Nat.le_of_eq rfl

end Manet.Reactor
