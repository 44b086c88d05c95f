/-
# Manet.Protocol.Fragmentation — messages cut into frames

What the frames of a connection mean, by themselves: a message is one frame, or a first
frame, continuation frames and a last one, with control frames in between.  `Takes` are
the rules, `assemble` decides them, and `reassemble` reads a sequence of frames up to
the first one that breaks them.

`reassemble_sent` says that what is read is a message of the sequence, `reassemble_items`
that every message written into a sequence is read back.  `Overflows` is the one limit a
receiver adds: the pending bytes have to fit its buffer.
-/
import Manet.Protocol.WebSocketFrame

namespace Manet.Protocol

set_option autoImplicit false

structure Frame where
  op : OpCode
  fin : Bool
  payload : List UInt8
  deriving DecidableEq, Repr

structure Message where
  op : OpCode
  payload : List UInt8
  deriving DecidableEq, Repr

/-- The opcodes that start a message. -/
def OpCode.data : OpCode → Bool
  | .text | .binary => true
  | .cont | .close | .ping | .pong | .reserved _ => false

def Message.extend (m : Message) (payload : List UInt8) : Message := ⟨m.op, m.payload ++ payload⟩

/-- The message in progress, if there is one. -/
abbrev Assembly := Option Message

/-- The bytes of the message in progress. -/
def pending : Assembly → List UInt8
  | none => []
  | some m => m.payload

/-- Frames that go through the message buffer. -/
def Frame.fragment (f : Frame) : Prop := f.fin = false ∨ f.op = .cont

instance (f : Frame) : Decidable f.fragment := by unfold Frame.fragment; infer_instance

/-! ## The rules -/

/-- What a frame makes of the message in progress, and the message it completes. -/
inductive Takes : Assembly → Frame → Assembly → Option Message → Prop where
  | whole {op : OpCode} {payload : List UInt8} (data : op.data = true) :
      Takes none ⟨op, true, payload⟩ none (some ⟨op, payload⟩)
  | start {op : OpCode} {payload : List UInt8} (data : op.data = true) :
      Takes none ⟨op, false, payload⟩ (some ⟨op, payload⟩) none
  | more {m : Message} {payload : List UInt8} :
      Takes (some m) ⟨.cont, false, payload⟩ (some (m.extend payload)) none
  | last {m : Message} {payload : List UInt8} :
      Takes (some m) ⟨.cont, true, payload⟩ none (some (m.extend payload))
  | aside {a : Assembly} {op : OpCode} {payload : List UInt8} (notData : op.data = false)
      (notCont : op ≠ .cont) : Takes a ⟨op, true, payload⟩ a none

/-- The rules, decided: `none` is a frame they do not allow. -/
def assemble (a : Assembly) (f : Frame) : Option (Assembly × Option Message) :=
  if f.op = .cont then
    a.map fun m => if f.fin then (none, some (m.extend f.payload)) else (some (m.extend f.payload), none)
  else if f.op.data then
    if a.isSome then none
    else if f.fin then some (none, some ⟨f.op, f.payload⟩)
    else some (some ⟨f.op, f.payload⟩, none)
  else if f.fin then some (a, none)
  else none

theorem assemble_eq_some_iff {a a' : Assembly} {f : Frame} {out : Option Message} :
    assemble a f = some (a', out) ↔ Takes a f a' out := by
  constructor
  · obtain ⟨op, fin, payload⟩ := f
    intro assembled
    unfold assemble at assembled
    dsimp only at assembled
    by_cases cont : op = .cont
    · subst cont
      cases a with
      | none => cases assembled
      | some m =>
          cases fin with
          | true => cases assembled; exact .last
          | false => cases assembled; exact .more
    rw [if_neg cont] at assembled
    cases data : op.data with
    | false =>
        cases fin with
        | true =>
            rw [data] at assembled
            cases assembled
            exact .aside data cont
        | false => rw [data] at assembled; cases assembled
    | true =>
        rw [data] at assembled
        cases a with
        | some m => cases assembled
        | none =>
            cases fin with
            | true => cases assembled; exact .whole data
            | false => cases assembled; exact .start data
  · intro takes
    have notCont : ∀ {op : OpCode}, op.data = true → op ≠ .cont := by
      rintro op data rfl
      cases data
    cases takes with
    | whole data => simp [assemble, notCont data, data]
    | start data => simp [assemble, notCont data, data]
    | more => rfl
    | last => rfl
    | aside notData notCont => simp [assemble, notCont, notData]

/-- The messages of a sequence of frames, and the message left in progress; `none` if a
frame broke the rules, and then only the messages before it. -/
def reassemble : Assembly → List Frame → List Message × Option Assembly
  | a, [] => ([], some a)
  | a, f :: later =>
      match assemble a f with
      | none => ([], none)
      | some (a', out) => (out.toList ++ (reassemble a' later).1, (reassemble a' later).2)

theorem reassemble_cons {a a' : Assembly} {f : Frame} {out : Option Message}
    (takes : Takes a f a' out) (later : List Frame) :
    reassemble a (f :: later) =
      (out.toList ++ (reassemble a' later).1, (reassemble a' later).2) := by
  rw [reassemble, assemble_eq_some_iff.mpr takes]

/-- A legal sequence begins with a frame the rules allow. -/
theorem reassemble_legal {a a' : Assembly} {f : Frame} {later : List Frame}
    {messages : List Message} (legal : reassemble a (f :: later) = (messages, some a')) :
    ∃ a₁ out rest, Takes a f a₁ out ∧ reassemble a₁ later = (rest, some a') ∧
      messages = out.toList ++ rest := by
  cases assembled : assemble a f with
  | none => simp [reassemble, assembled] at legal
  | some taken =>
      obtain ⟨a₁, out⟩ := taken
      have takes := assemble_eq_some_iff.mp assembled
      rw [reassemble_cons takes, Prod.mk.injEq] at legal
      exact ⟨a₁, out, _, takes, Prod.ext rfl legal.2, legal.1.symm⟩

theorem reassemble_append {a a' : Assembly} {frames : List Frame} {messages : List Message}
    (first : reassemble a frames = (messages, some a')) (later : List Frame) :
    reassemble a (frames ++ later) =
      (messages ++ (reassemble a' later).1, (reassemble a' later).2) := by
  induction frames generalizing a messages with
  | nil =>
      cases first
      rfl
  | cons f frames ih =>
      obtain ⟨a₁, out, rest, takes, next, rfl⟩ := reassemble_legal first
      rw [List.cons_append, reassemble_cons takes, ih next, List.append_assoc]

/-- What comes behind a frame that broke the rules is not read. -/
theorem reassemble_broken {a : Assembly} {frames : List Frame} {messages : List Message}
    (broken : reassemble a frames = (messages, none)) (later : List Frame) :
    reassemble a (frames ++ later) = (messages, none) := by
  induction frames generalizing a messages with
  | nil => cases broken
  | cons f frames ih =>
      rw [reassemble] at broken
      rw [List.cons_append, reassemble]
      cases assembled : assemble a f with
      | none =>
          rw [assembled] at broken
          exact broken
      | some taken =>
          rw [assembled] at broken
          rw [Prod.mk.injEq] at broken
          have rest := ih (Prod.ext rfl broken.2)
          dsimp only
          rw [rest, ← broken.1]

/-! ## What is read was sent -/

/-- The bytes that a sequence of frames puts into the message buffer. -/
def assembled (frames : List Frame) : List UInt8 :=
  frames.flatMap fun f => if f.fragment then f.payload else []

/-- Frames that may stand between the first and the last frame of a message. -/
def Frame.Between (f : Frame) : Prop :=
  f.op = .cont ∧ f.fin = false ∨ f.op ≠ .cont ∧ f.op.data = false ∧ f.fin = true

/-- The message stands in the sequence: as one frame, or as exactly one start frame and
the continuation frames that follow it, up to the first that is final. -/
inductive Sent (frames : List Frame) : Message → Prop where
  | whole {op : OpCode} {payload : List UInt8} (data : op.data = true)
      (here : ⟨op, true, payload⟩ ∈ frames) : Sent frames ⟨op, payload⟩
  | fragmented {op : OpCode} {before middle after : List Frame} {first last : List UInt8}
      (data : op.data = true)
      (here : frames = before ++ ⟨op, false, first⟩ :: (middle ++ ⟨.cont, true, last⟩ :: after))
      (between : ∀ f ∈ middle, f.Between) :
      Sent frames ⟨op, first ++ assembled middle ++ last⟩

/-- The message in progress stands at the end of the sequence. -/
inductive Started (frames : List Frame) : Assembly → Prop where
  | nothing : Started frames none
  | something {op : OpCode} {before middle : List Frame} {first : List UInt8}
      (data : op.data = true) (here : frames = before ++ ⟨op, false, first⟩ :: middle)
      (between : ∀ f ∈ middle, f.Between) :
      Started frames (some ⟨op, first ++ assembled middle⟩)

theorem assembled_append (frames later : List Frame) :
    assembled (frames ++ later) = assembled frames ++ assembled later := by
  simp [assembled]

/-- One more frame between the first and the last. -/
theorem Started.between {frames : List Frame} {m : Message} {f : Frame} (between : f.Between)
    (started : Started frames (some m)) :
    Started (frames ++ [f]) (some (m.extend (assembled [f]))) := by
  cases started with
  | @something op before middle first data here earlier =>
      have more : Started (frames ++ [f]) (some ⟨op, first ++ assembled (middle ++ [f])⟩) := by
        have split : frames ++ [f] = before ++ ⟨op, false, first⟩ :: (middle ++ [f]) := by simp [here]
        refine .something data split ?_
        intro g mem
        rcases List.mem_append.mp mem with old | new
        · exact earlier g old
        · rw [List.mem_singleton.mp new]
          exact between
      rw [assembled_append, ← List.append_assoc] at more
      exact more

theorem Takes.started {a a' : Assembly} {f : Frame} {out : Option Message} {past : List Frame}
    (takes : Takes a f a' out) (started : Started past a) : Started (past ++ [f]) a' := by
  cases takes with
  | whole | last => exact .nothing
  | @start op payload data =>
      have alone : Started (past ++ [⟨op, false, payload⟩]) (some ⟨op, payload ++ assembled []⟩) :=
        .something data rfl (by simp)
      simpa [assembled] using alone
  | @more m payload =>
      have longer := started.between (f := ⟨.cont, false, payload⟩) (.inl ⟨rfl, rfl⟩)
      simpa [assembled, Frame.fragment] using longer
  | @aside _ op payload notData notCont =>
      cases a with
      | none => exact .nothing
      | some m =>
          have longer := started.between (f := ⟨op, true, payload⟩) (.inr ⟨notCont, notData, rfl⟩)
          simpa [assembled, Frame.fragment, notCont, Message.extend] using longer

theorem Takes.sent {a a' : Assembly} {f : Frame} {m : Message} {past : List Frame}
    (takes : Takes a f a' (some m)) (started : Started past a) (later : List Frame) :
    Sent (past ++ f :: later) m := by
  cases takes with
  | whole data => exact .whole data (by simp)
  | @last m' payload =>
      cases started with
      | @something op before middle first data here between =>
          have split : past ++ ⟨.cont, true, payload⟩ :: later =
              before ++ ⟨op, false, first⟩ :: (middle ++ ⟨.cont, true, payload⟩ :: later) := by
            rw [here, List.append_assoc, List.cons_append]
          exact .fragmented data split between

/-- **Every message read from a sequence stands in it.** -/
theorem reassemble_sent {a : Assembly} {past frames : List Frame} (started : Started past a) :
    ∀ m ∈ (reassemble a frames).1, Sent (past ++ frames) m := by
  induction frames generalizing a past with
  | nil =>
      intro m mem
      cases mem
  | cons f later ih =>
      intro m mem
      cases assembled' : assemble a f with
      | none =>
          rw [reassemble, assembled'] at mem
          cases mem
      | some taken =>
          obtain ⟨a', out⟩ := taken
          have takes := assemble_eq_some_iff.mp assembled'
          rw [reassemble_cons takes] at mem
          rcases List.mem_append.mp mem with now | then'
          · rw [Option.mem_toList] at now
            subst now
            exact takes.sent started later
          · have next := ih (takes.started started) m then'
            rwa [List.append_assoc, List.singleton_append] at next

/-! ## What is sent is read -/

/-- A control frame that needs no more than a short reply. -/
structure Control where
  ping : Bool
  payload : List UInt8
  short : ping = true → payload.length ≤ 125

def Control.frame (c : Control) : Frame := ⟨if c.ping then .ping else .pong, true, c.payload⟩

/-- A continuation frame, and the control frames before it. -/
structure Fragment where
  controls : List Control
  payload : List UInt8

def Fragment.frames (fin : Bool) (f : Fragment) : List Frame :=
  f.controls.map Control.frame ++ [⟨.cont, fin, f.payload⟩]

/-- What a sender writes: control frames, and messages in one frame or in several. -/
inductive Item where
  | control (c : Control)
  | whole (op : OpCode) (data : op.data = true) (payload : List UInt8)
  | fragmented (op : OpCode) (data : op.data = true) (first : List UInt8)
      (middle : List Fragment) (last : Fragment)

namespace Item

def frames : Item → List Frame
  | control c => [c.frame]
  | whole op _ payload => [⟨op, true, payload⟩]
  | fragmented op _ first middle last =>
      ⟨op, false, first⟩ :: (middle.flatMap (Fragment.frames false) ++ last.frames true)

def message : Item → Option Message
  | control _ => none
  | whole op _ payload => some ⟨op, payload⟩
  | fragmented op _ first middle last =>
      some ⟨op, first ++ middle.flatMap Fragment.payload ++ last.payload⟩

/-- Whether a fragmented message fits a buffer. -/
def Fits (cap : Nat) : Item → Prop
  | control _ | whole _ _ _ => True
  | fragmented _ _ first middle last =>
      (first ++ middle.flatMap Fragment.payload ++ last.payload).length ≤ cap

end Item

theorem Control.takes (c : Control) (a : Assembly) : Takes a c.frame a none := by
  unfold Control.frame
  cases c.ping with
  | true => exact .aside rfl (by decide)
  | false => exact .aside rfl (by decide)

theorem reassemble_controls (a : Assembly) (controls : List Control) :
    reassemble a (controls.map Control.frame) = ([], some a) := by
  induction controls with
  | nil => rfl
  | cons c controls ih => rw [List.map_cons, reassemble_cons (c.takes a), ih]; rfl

theorem reassemble_fragment (m : Message) (f : Fragment) :
    reassemble (some m) (f.frames false) = ([], some (some (m.extend f.payload))) := by
  rw [Fragment.frames, reassemble_append (reassemble_controls _ _), reassemble_cons .more]
  rfl

theorem reassemble_last (m : Message) (f : Fragment) :
    reassemble (some m) (f.frames true) = ([m.extend f.payload], some none) := by
  rw [Fragment.frames, reassemble_append (reassemble_controls _ _), reassemble_cons .last]
  rfl

theorem reassemble_middle (m : Message) (middle : List Fragment) :
    reassemble (some m) (middle.flatMap (Fragment.frames false)) =
      ([], some (some (m.extend (middle.flatMap Fragment.payload)))) := by
  induction middle generalizing m with
  | nil => simp [reassemble, Message.extend]
  | cons f middle ih =>
      rw [List.flatMap_cons, reassemble_append (reassemble_fragment m f), ih]
      simp [Message.extend]

theorem reassemble_item (item : Item) :
    reassemble none item.frames = (item.message.toList, some none) := by
  cases item with
  | control c => exact reassemble_cons (c.takes none) []
  | whole op data payload => exact reassemble_cons (.whole data) []
  | fragmented op data first middle last =>
      rw [Item.frames, reassemble_cons (.start data),
        reassemble_append (reassemble_middle _ middle), reassemble_last]
      rfl

/-- A final continuation completes a message. -/
theorem reassemble_completes {a a' : Assembly} {frames : List Frame} {payload : List UInt8}
    {messages : List Message}
    (legal : reassemble a (frames ++ [⟨.cont, true, payload⟩]) = (messages, some a')) :
    messages ≠ [] := by
  induction frames generalizing a messages with
  | nil =>
      obtain ⟨a₁, out, rest, takes, -, rfl⟩ := reassemble_legal legal
      cases takes with
      | last => simp
      | aside _ notCont => exact absurd rfl notCont
      | whole data => cases data
  | cons f frames ih =>
      obtain ⟨a₁, out, rest, -, next, rfl⟩ := reassemble_legal legal
      have completed := ih next
      simp [completed]

/-- Before its last frame, a fragmented message is not read. -/
theorem reassemble_unfinished {op : OpCode} {data : op.data = true} {first : List UInt8}
    {middle : List Fragment} {last : Fragment} {before after : List Frame} {f : Frame}
    {messages : List Message} {a : Assembly}
    (split : (Item.fragmented op data first middle last).frames = before ++ f :: after)
    (read : reassemble none before = (messages, some a)) : messages = [] := by
  have whole := reassemble_item (.fragmented op data first middle last)
  rw [split, reassemble_append read] at whole
  obtain ⟨ys, z, last'⟩ : ∃ ys z, f :: after = ys ++ [z] :=
    ⟨_, _, (List.dropLast_concat_getLast (by simp)).symm⟩
  -- what is left ends with the message's last frame, so it completes the message
  have final : z = ⟨.cont, true, last.payload⟩ := by
    have ends : (⟨op, false, first⟩ :: (middle.flatMap (Fragment.frames false) ++
        last.controls.map Control.frame)) ++ [⟨.cont, true, last.payload⟩] =
          (before ++ ys) ++ [z] := by
      rw [List.append_assoc, ← last', ← split]
      simp [Item.frames, Fragment.frames]
    have same := (List.append_inj' ends rfl).2
    exact (List.singleton_inj.mp same).symm
  have completes : (reassemble a (f :: after)).1 ≠ [] := by
    rw [Prod.mk.injEq] at whole
    rw [last', final] at whole ⊢
    exact reassemble_completes (Prod.ext rfl whole.2)
  have one := congrArg (fun result => result.1.length) whole
  simp only [Item.message, Option.toList_some, List.length_append, List.length_singleton] at one
  have positive := List.length_pos_iff.mpr completes
  exact List.length_eq_zero_iff.mp (by omega)

/-- **Every message written into a sequence is read back, in order.** -/
theorem reassemble_items (items : List Item) :
    reassemble none (items.flatMap Item.frames) = (items.filterMap Item.message, some none) := by
  induction items with
  | nil => rfl
  | cons item items ih =>
      rw [List.flatMap_cons, reassemble_append (reassemble_item item), ih, List.filterMap_cons]
      cases item.message <;> rfl

/-! ## The message buffer -/

/-- The frame does not fit a message buffer with the pending bytes. -/
def Overflows (cap : Nat) (a : Assembly) (f : Frame) : Prop :=
  f.fragment ∧ cap < (pending a).length + f.payload.length

/-- No frame of the sequence overflows the message buffer. -/
def Fits (cap : Nat) : Assembly → List Frame → Prop
  | _, [] => True
  | a, f :: later => ¬ Overflows cap a f ∧ ∀ a' out, Takes a f a' out → Fits cap a' later

theorem Takes.unique {a a₁ a₂ : Assembly} {f : Frame} {out₁ out₂ : Option Message}
    (left : Takes a f a₁ out₁) (right : Takes a f a₂ out₂) : a₁ = a₂ ∧ out₁ = out₂ := by
  rw [← assemble_eq_some_iff] at left right
  simpa using left.symm.trans right

section Buffer

variable {cap : Nat}

theorem fits_cons {a a' : Assembly} {f : Frame} {out : Option Message} (takes : Takes a f a' out)
    (later : List Frame) :
    Fits cap a (f :: later) ↔ ¬ Overflows cap a f ∧ Fits cap a' later := by
  constructor
  · rintro ⟨small, rest⟩
    exact ⟨small, rest a' out takes⟩
  · rintro ⟨small, rest⟩
    refine ⟨small, ?_⟩
    intro a₂ out₂ takes'
    obtain ⟨rfl, -⟩ := takes.unique takes'
    exact rest

theorem fits_append {a a' : Assembly} {frames : List Frame} {messages : List Message}
    (first : reassemble a frames = (messages, some a')) (later : List Frame) :
    Fits cap a (frames ++ later) ↔ Fits cap a frames ∧ Fits cap a' later := by
  induction frames generalizing a messages with
  | nil =>
      cases first
      exact (iff_of_eq (true_and _)).symm
  | cons f frames ih =>
      obtain ⟨a₁, out, rest, takes, next, rfl⟩ := reassemble_legal first
      rw [List.cons_append, fits_cons takes, fits_cons takes, ih next, and_assoc]

theorem fits_controls (a : Assembly) (controls : List Control) :
    Fits cap a (controls.map Control.frame) := by
  induction controls with
  | nil => trivial
  | cons c controls ih =>
      rw [List.map_cons, fits_cons (c.takes a)]
      refine ⟨?_, ih⟩
      rintro ⟨fragment, -⟩
      rcases fragment with open' | cont
      · cases open'
      · unfold Control.frame at cont
        cases ping : c.ping <;> simp [ping] at cont

theorem fits_fragment (m : Message) (fin : Bool) (f : Fragment) :
    Fits cap (some m) (f.frames fin) ↔ m.payload.length + f.payload.length ≤ cap := by
  have single : ∀ fin : Bool, Fits cap (some m) [⟨.cont, fin, f.payload⟩] ↔
      m.payload.length + f.payload.length ≤ cap := by
    intro fin
    simp [Fits, Overflows, Frame.fragment, pending]
  rw [Fragment.frames, fits_append (reassemble_controls _ _), single]
  exact and_iff_right (fits_controls _ _)

theorem fits_middle {m : Message} (small : m.payload.length ≤ cap) (middle : List Fragment) :
    Fits cap (some m) (middle.flatMap (Fragment.frames false)) ↔
      (m.payload ++ middle.flatMap Fragment.payload).length ≤ cap := by
  induction middle generalizing m with
  | nil => simpa [Fits] using small
  | cons f middle ih =>
      rw [List.flatMap_cons, fits_append (reassemble_fragment m f), fits_fragment]
      simp only [List.flatMap_cons, List.length_append]
      constructor
      · rintro ⟨now, rest⟩
        rw [ih (by simpa [Message.extend] using now)] at rest
        simp only [Message.extend, List.length_append] at rest
        omega
      · intro total
        refine ⟨by omega, ?_⟩
        rw [ih (by simp only [Message.extend, List.length_append]; omega)]
        simp only [Message.extend, List.length_append]
        omega

/-- The frames of a message fit exactly when the whole message does. -/
theorem fits_item (item : Item) : Fits cap none item.frames ↔ item.Fits cap := by
  cases item with
  | control c => exact iff_of_true (fits_controls none [c]) trivial
  | whole op data payload =>
      refine iff_of_true ?_ trivial
      rw [Item.frames, fits_cons (.whole data)]
      refine ⟨?_, trivial⟩
      rintro ⟨open' | rfl, -⟩
      · cases open'
      · cases data
  | fragmented op data first middle last =>
      have fragment : Frame.fragment ⟨op, false, first⟩ := .inl rfl
      rw [Item.frames, fits_cons (.start data), fits_append (reassemble_middle _ middle),
        fits_fragment]
      simp only [Overflows, fragment, true_and, pending, List.length_nil, Nat.zero_add, Nat.not_lt,
        Item.Fits, Message.extend, List.length_append]
      constructor
      · rintro ⟨-, -, total⟩
        exact total
      · intro total
        refine ⟨by omega, ?_, total⟩
        rw [fits_middle (by dsimp only; omega)]
        simp only [List.length_append]
        omega

theorem fits_items {items : List Item} (fits : ∀ item ∈ items, item.Fits cap) :
    Fits cap none (items.flatMap Item.frames) := by
  induction items with
  | nil => trivial
  | cons item items ih =>
      rw [List.flatMap_cons, fits_append (reassemble_item item)]
      refine ⟨(fits_item item).mpr (fits item (by simp)), ih ?_⟩
      intro other mem
      exact fits other (by simp [mem])

/-- A legal sequence that does not fit has a first frame that overflows. -/
theorem exists_overflow {a a' : Assembly} {frames : List Frame} {messages : List Message}
    (legal : reassemble a frames = (messages, some a')) (large : ¬ Fits cap a frames) :
    ∃ before crossing after reached read, frames = before ++ crossing :: after ∧
      Fits cap a before ∧ reassemble a before = (read, some reached) ∧
      Overflows cap reached crossing := by
  induction frames generalizing a messages with
  | nil => exact absurd trivial large
  | cons f later ih =>
      by_cases now : Overflows cap a f
      · exact ⟨[], f, later, a, [], rfl, trivial, rfl, now⟩
      · obtain ⟨a₁, out, rest, takes, next, -⟩ := reassemble_legal legal
        rw [fits_cons takes] at large
        obtain ⟨before, crossing, after, reached, read, split, fits, reads, overflows⟩ :=
          ih next fun rest => large ⟨now, rest⟩
        refine ⟨f :: before, crossing, after, reached, out.toList ++ read, ?_, ?_, ?_, overflows⟩
        · rw [split]
          rfl
        · rw [fits_cons takes]
          exact ⟨now, fits⟩
        · rw [reassemble_cons takes, reads]

end Buffer

/-- While no message is completed, the fragments pile up. -/
theorem pending_reassemble {a a' : Assembly} {frames : List Frame}
    (reached : reassemble a frames = ([], some a')) :
    pending a' = pending a ++ assembled frames := by
  induction frames generalizing a with
  | nil =>
      cases reached
      simp [assembled]
  | cons f later ih =>
      obtain ⟨a₁, out, rest, takes, next, empty⟩ := reassemble_legal reached
      obtain ⟨silent, rfl⟩ := List.append_eq_nil_iff.mp empty.symm
      have step : pending a₁ = pending a ++ assembled [f] := by
        cases takes with
        | whole | last => cases silent
        | start | more => simp [assembled, Frame.fragment, pending, Message.extend]
        | aside _ notCont => simp [assembled, Frame.fragment, notCont]
      rw [ih next, step, List.append_assoc, ← assembled_append]
      rfl

end Manet.Protocol
