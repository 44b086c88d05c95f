/-
# Manet.Protocol.WebSocketHandshake — the opening handshake and control frames

`src/manet/protocol/websocket.cc`: the upgrade request and the key it expects back,
the reader of the server's response, and the writer of control frames.  Random bytes
and SHA-1 are taken from outside (`Crypto`).  A `std::string` is a `String` whose
characters are its bytes.

`read_handshake` scans the whole window afresh on every call.  What makes the
handshake independent of how the response arrives is that a complete response ends
the scan: `scan_append` says that bytes behind a scan that has found the empty line
change nothing, and `readHandshake_append` that they change nothing in the answer.
-/
import Mathlib.Data.List.TakeWhile
import Manet.Protocol.Handlers
import Manet.Protocol.WebSocketFrame

namespace Manet.Protocol

open Manet.Reactor

set_option autoImplicit false

/-- The random device, one byte at a time, and SHA-1. -/
structure Crypto (ω : Type) where
  random : ω → UInt8 × ω
  sha1 : List UInt8 → List UInt8
  sha1_length : ∀ message, (sha1 message).length = 20

/-- The bytes of a `std::string`. -/
def stringBytes (s : String) : List UInt8 := s.toList.map fun c => c.toNat.toUInt8

section Random

variable {ω : Type} (K : Crypto ω)

def randomBytes : Nat → ω → List UInt8 × ω
  | 0, w => ([], w)
  | n + 1, w =>
      let (b, w) := K.random w
      let (bs, w) := randomBytes n w
      (b :: bs, w)

@[simp] theorem randomBytes_length (n : Nat) (w : ω) : (randomBytes K n w).1.length = n := by
  induction n generalizing w with
  | zero => rfl
  | succ n ih => simp [randomBytes, ih]

end Random

/-! ## Base64 (`utils/base64.hpp`) -/

def base64Table : List UInt8 :=
  stringBytes "ABCDEFGHIJKLMNOPQRSTUVWXYZabcdefghijklmnopqrstuvwxyz0123456789+/"

def base64Digit (n : UInt8) : UInt8 := base64Table.getD n.toNat 0

def base64Encode : List UInt8 → List UInt8
  | a :: b :: c :: rest =>
      base64Digit (a >>> 2) :: base64Digit (((a &&& 0x03) <<< 4) ||| (b >>> 4)) ::
        base64Digit (((b &&& 0x0f) <<< 2) ||| (c >>> 6)) :: base64Digit (c &&& 0x3f) ::
          base64Encode rest
  | [a, b] =>
      [base64Digit (a >>> 2), base64Digit (((a &&& 0x03) <<< 4) ||| (b >>> 4)),
        base64Digit ((b &&& 0x0f) <<< 2), 0x3D]
  | [a] => [base64Digit (a >>> 2), base64Digit ((a &&& 0x03) <<< 4), 0x3D, 0x3D]
  | [] => []

theorem base64Encode_length : ∀ input : List UInt8,
    (base64Encode input).length = 4 * ((input.length + 2) / 3)
  | _ :: _ :: _ :: rest => by
      have ih := base64Encode_length rest
      simp only [base64Encode, List.length_cons, ih]
      omega
  | [_, _] => by simp [base64Encode]
  | [_] => by simp [base64Encode]
  | [] => rfl

example : base64Encode (stringBytes "Man") = stringBytes "TWFu" := by decide

example : base64Encode (stringBytes "M") = stringBytes "TQ==" := by decide

/-! ## `make_handshake` -/

structure Header where
  name : String
  value : String
  deriving DecidableEq, Repr

structure Handshake where
  upgradeRequest : List UInt8
  acceptKey : Vector UInt8 28

def guid : List UInt8 := stringBytes "258EAFA5-E914-47DA-95CA-C5AB0DC85B11"

/-- `base64( SHA1( key_b64 ; GUID ) )` -/
def acceptKeyFor {ω : Type} (K : Crypto ω) (key : List UInt8) : Vector UInt8 28 :=
  ⟨(base64Encode (K.sha1 (key ++ guid))).toArray, by
    simp [base64Encode_length, K.sha1_length]⟩

def headerLine (h : Header) : List UInt8 :=
  if h.name.isEmpty then [] else stringBytes h.name ++ stringBytes ": " ++ stringBytes h.value ++ [13, 10]

def makeHandshake {ω : Type} (K : Crypto ω) (host path : String) (extra : List Header) (w : ω) :
    Handshake × ω :=
  let (nonce, w) := randomBytes K 16 w
  let key := base64Encode nonce
  ({ upgradeRequest :=
       stringBytes "GET " ++ stringBytes path ++ stringBytes " HTTP/1.1\r\n" ++
         stringBytes "Host: " ++ stringBytes host ++ stringBytes "\r\n" ++
         stringBytes "Upgrade: websocket\r\n" ++
         stringBytes "Connection: Upgrade\r\n" ++
         stringBytes "Sec-WebSocket-Key: " ++ key ++ stringBytes "\r\n" ++
         stringBytes "Sec-WebSocket-Version: 13\r\n" ++
         (extra.map headerLine).flatten ++ stringBytes "\r\n"
     acceptKey := acceptKeyFor K key }, w)

/-! ## `read_handshake` -/

def advanceCrlfCount (counter : Nat) (chr : UInt8) : Nat :=
  if chr = 13 then counter + (if counter % 2 = 0 then 1 else 0)
  else if chr = 10 then counter + counter % 2
  else 0

/-- The indices the scan establishes. -/
structure Scan where
  i : Nat := 0
  crlf : Nat := 0
  spIx : Nat := 0
  keyStart : Nat := 0
  deriving DecidableEq, Repr

def acceptHeader : List UInt8 := stringBytes "Sec-WebSocket-Accept:"

/-- `std::tolower` in the C locale. -/
def toLower (b : UInt8) : UInt8 := if 65 ≤ b ∧ b ≤ 90 then b + 32 else b

/-- The header's name stands at `i`, in any case, with a byte behind it in the window. -/
def headerAt (input : List UInt8) (i : Nat) : Bool :=
  i + acceptHeader.length < input.length ∧
    ((input.drop i).take acceptHeader.length).map toLower = acceptHeader.map toLower

/-- The source's loop has no bound of its own; a read past the window ends it. -/
def skipSpaces (input : List UInt8) (k : Nat) : Nat :=
  k + ((input.drop k).takeWhile (· = 32)).length

/-- One byte of the scan, up to the test for the empty line. -/
def scanByte (input : List UInt8) (s : Scan) (chr : UInt8) : Scan :=
  { i := s.i
    crlf := advanceCrlfCount s.crlf chr
    spIx := if s.spIx = 0 ∧ chr = 32 then s.i else s.spIx
    keyStart :=
      if s.keyStart = 0 ∧ s.crlf = 2 ∧ chr = 83 ∧ headerAt input s.i then
        skipSpaces input (s.i + acceptHeader.length)
      else s.keyStart }

/-- The loop over the window; the second argument is what is left of it. -/
def scan (input : List UInt8) : List UInt8 → Scan → Scan
  | [], s => s
  | chr :: rest, s =>
      let s := scanByte input s chr
      if s.crlf = 4 then s else scan input rest { s with i := s.i + 1 }

/-- The checks on a complete response. -/
def checkResponse (acceptKey : List UInt8) (input : List UInt8) (s : Scan) : Status :=
  if s.spIx = 0 ∨ input.length ≤ s.spIx + 3 then .error
  else if input.getD (s.spIx + 1) 0 ≠ 49 ∨ input.getD (s.spIx + 2) 0 ≠ 48 ∨
      input.getD (s.spIx + 3) 0 ≠ 49 then .error
  else
    let got := (input.drop s.keyStart).takeWhile fun b => b ≠ 13 ∧ b ≠ 10
    if got ≠ acceptKey then .error else .ok

/-- The status, and how many bytes were read if the response was complete. -/
def readHandshake (acceptKey : List UInt8) (input : List UInt8) : Status × Option Nat :=
  let s := scan input input {}
  if s.crlf ≠ 4 then (.ok, none) else (checkResponse acceptKey input s, some (s.i + 1))

/-! ## A complete response ends the scan -/

theorem advanceCrlfCount_le (counter : Nat) (chr : UInt8) :
    advanceCrlfCount counter chr ≤ counter + 1 := by
  unfold advanceCrlfCount
  split
  · split <;> omega
  · split <;> omega

/-- Only a line feed completes the empty line. -/
theorem lf_of_advanceCrlfCount {counter : Nat} {chr : UInt8} (before : counter ≠ 4)
    (after : advanceCrlfCount counter chr = 4) : chr = 10 ∧ counter = 3 := by
  unfold advanceCrlfCount at after
  split at after
  · split at after <;> omega
  · split at after
    · rename_i lf
      exact ⟨lf, by omega⟩
    · cases after

theorem lf_mem_of_scan {input : List UInt8} : ∀ (rest : List UInt8) (s : Scan),
    s.crlf ≠ 4 → (scan input rest s).crlf = 4 → 10 ∈ rest
  | [], s, before, done => absurd done before
  | chr :: rest, s, before, done => by
      unfold scan at done
      by_cases last : (scanByte input s chr).crlf = 4
      · rw [(lf_of_advanceCrlfCount before last).1]
        exact List.mem_cons_self
      · rw [if_neg last] at done
        have later := lf_mem_of_scan rest { scanByte input s chr with i := s.i + 1 } last done
        exact List.mem_cons_of_mem chr later

theorem lf_not_mem_header : (10 : UInt8) ∉ acceptHeader.map toLower := by decide

/-- The header's name has no line feed in it, so a match ends before the next one. -/
theorem lf_after_header {input : List UInt8} {i : Nat} (ahead : 10 ∈ input.drop i)
    (found : headerAt input i = true) : 10 ∈ input.drop (i + acceptHeader.length) := by
  have same := (of_decide_eq_true found).2
  rw [← List.take_append_drop acceptHeader.length (input.drop i)] at ahead
  rcases List.mem_append.mp ahead with inside | behind
  · have image : toLower 10 ∈ acceptHeader.map toLower := by
      rw [← same]
      exact List.mem_map_of_mem inside
    exact absurd image lf_not_mem_header
  · rwa [List.drop_drop] at behind

theorem drop_takeWhile (p : UInt8 → Bool) (l : List UInt8) :
    l.drop (l.takeWhile p).length = l.dropWhile p := by
  have whole : (l.takeWhile p ++ l.dropWhile p).drop (l.takeWhile p).length = l.dropWhile p :=
    List.drop_left
  rwa [List.takeWhile_append_dropWhile] at whole

theorem lf_after_skipSpaces {input : List UInt8} {k : Nat} (ahead : 10 ∈ input.drop k) :
    10 ∈ input.drop (skipSpaces input k) := by
  rw [← List.takeWhile_append_dropWhile (p := (· = 32)) (l := input.drop k)] at ahead
  rcases List.mem_append.mp ahead with blank | behind
  · have := List.mem_takeWhile_imp blank
    simp at this
  · rwa [skipSpaces, ← List.drop_drop, drop_takeWhile]

section Append

variable {input : List UInt8} (more : List UInt8)

theorem drop_append_of_mem {i : Nat} {b : UInt8} (ahead : b ∈ input.drop i) :
    (input ++ more).drop i = input.drop i ++ more := by
  apply List.drop_append_of_le_length
  by_contra past
  rw [List.drop_of_length_le (by omega)] at ahead
  cases ahead

theorem takeWhile_append_of_mem {l : List UInt8} {p : UInt8 → Bool} {b : UInt8} (stop : p b = false)
    (ahead : b ∈ l) : (l ++ more).takeWhile p = l.takeWhile p := by
  induction l with
  | nil => cases ahead
  | cons a l ih =>
      by_cases pa : p a = true
      · have tail : b ∈ l := by
          rcases List.mem_cons.mp ahead with rfl | tail
          · rw [stop] at pa; cases pa
          · exact tail
        simp only [List.cons_append, List.takeWhile_cons, pa, if_true, ih tail]
      · simp only [List.cons_append, List.takeWhile_cons, pa, Bool.false_eq_true, if_false]

theorem skipSpaces_append {k : Nat} (ahead : 10 ∈ input.drop k) :
    skipSpaces (input ++ more) k = skipSpaces input k := by
  simp only [skipSpaces, drop_append_of_mem more ahead]
  rw [takeWhile_append_of_mem more (by decide) ahead]

/-- Where a line feed is still ahead, bytes behind the window do not change whether the
header stands here: a match that would reach them has the line feed in it. -/
theorem headerAt_append {i : Nat} (ahead : 10 ∈ input.drop i) :
    headerAt (input ++ more) i = headerAt input i := by
  have shape := drop_append_of_mem more ahead
  by_cases short : i + acceptHeader.length < input.length
  · have window : ((input ++ more).drop i).take acceptHeader.length =
        (input.drop i).take acceptHeader.length := by
      rw [shape, List.take_append_of_le_length (by simp; omega)]
    have longer : i + acceptHeader.length < (input ++ more).length := by simp; omega
    simp only [headerAt, window, short, longer]
  · have here : headerAt input i = false := by simp [headerAt, short]
    rw [here, Bool.eq_false_iff]
    intro found
    have same := (of_decide_eq_true found).2
    have inside : 10 ∈ ((input ++ more).drop i).take acceptHeader.length := by
      rw [shape, List.take_append]
      apply List.mem_append_left
      rwa [List.take_of_length_le (by simp; omega)]
    have image : toLower 10 ∈ acceptHeader.map toLower := by
      rw [← same]
      exact List.mem_map_of_mem inside
    exact lf_not_mem_header image

theorem scanByte_append {s : Scan} {chr : UInt8} (ahead : 10 ∈ input.drop s.i) :
    scanByte (input ++ more) s chr = scanByte input s chr := by
  simp only [scanByte, headerAt_append more ahead]
  by_cases found : headerAt input s.i = true
  · rw [skipSpaces_append more (lf_after_header ahead found)]
  · simp [found]

theorem scan_append : ∀ (pre rest : List UInt8) (s : Scan), input = pre ++ rest →
    s.i = pre.length → s.crlf ≠ 4 → (scan input rest s).crlf = 4 →
    scan (input ++ more) (rest ++ more) s = scan input rest s
  | _, [], _, _, _, before, done => absurd done before
  | pre, chr :: rest, s, split, here, before, done => by
      have ahead : 10 ∈ input.drop s.i := by
        rw [split, here, List.drop_left]
        exact lf_mem_of_scan _ s before done
      unfold scan at done
      rw [List.cons_append, scan, scan, scanByte_append more ahead]
      by_cases last : (scanByte input s chr).crlf = 4
      · simp only [last, if_true]
      · simp only [last, if_false] at done ⊢
        apply scan_append (pre ++ [chr]) rest
        · simp [split]
        · simp [here, scanByte]
        · exact last
        · exact done

end Append

/-- Where a complete scan stopped, and what it had found. -/
structure Scan.Complete (input : List UInt8) (s : Scan) : Prop where
  inside : s.i < input.length
  status : s.spIx ≠ 0 → s.spIx + 3 < input.length
  key : 10 ∈ input.drop s.keyStart

theorem scan_complete {input : List UInt8} : ∀ (pre rest : List UInt8) (s : Scan),
    input = pre ++ rest → s.i = pre.length → s.crlf ≠ 4 →
    (s.spIx ≠ 0 → s.spIx + s.crlf < s.i) → 10 ∈ input.drop s.keyStart →
    (scan input rest s).crlf = 4 → (scan input rest s).Complete input
  | _, [], _, _, _, before, _, _, done => absurd done before
  | pre, chr :: rest, s, split, here, before, spaced, keyed, done => by
      have ahead : 10 ∈ input.drop s.i := by
        rw [split, here, List.drop_left]
        exact lf_mem_of_scan _ s before done
      have inside : s.i < input.length := by simp [split, here]
      have keyed' : 10 ∈ input.drop (scanByte input s chr).keyStart := by
        simp only [scanByte]
        split
        · rename_i found
          exact lf_after_skipSpaces (lf_after_header ahead found.2.2.2)
        · exact keyed
      unfold scan at done ⊢
      by_cases last : (scanByte input s chr).crlf = 4
      · simp only [last, if_true] at done ⊢
        obtain ⟨lf, three⟩ := lf_of_advanceCrlfCount before last
        refine ⟨inside, ?_, keyed'⟩
        intro found
        have notSpace : ¬ (s.spIx = 0 ∧ chr = 32) := by rintro ⟨-, rfl⟩; simp at lf
        simp only [scanByte, notSpace, if_false] at found ⊢
        have := spaced found
        omega
      · simp only [last, if_false] at done ⊢
        apply scan_complete (pre ++ [chr]) rest
        · simp [split]
        · simp [here, scanByte]
        · exact last
        · intro found
          simp only [scanByte] at found ⊢
          split
          · rename_i space
            simp [space.2, advanceCrlfCount]
          · rename_i notSpace
            rw [if_neg notSpace] at found
            have := spaced found
            have := advanceCrlfCount_le s.crlf chr
            omega
        · exact keyed'
        · exact done

theorem scan_window_complete {input : List UInt8} (done : (scan input input {}).crlf = 4) :
    (scan input input {}).Complete input := by
  apply scan_complete [] input {} rfl rfl (by decide) (by decide) _ done
  exact lf_mem_of_scan input {} (by decide) done

/-- **Bytes behind a complete response change nothing in how it is answered.** -/
theorem readHandshake_append {acceptKey input : List UInt8} (more : List UInt8)
    (done : (readHandshake acceptKey input).2 ≠ none) :
    readHandshake acceptKey (input ++ more) = readHandshake acceptKey input := by
  have ended : (scan input input {}).crlf = 4 := by
    by_contra notYet
    simp [readHandshake, notYet] at done
  have same : scan (input ++ more) (input ++ more) {} = scan input input {} :=
    scan_append more [] input {} rfl rfl (by decide) ended
  obtain ⟨-, status, key⟩ := scan_window_complete ended
  simp only [readHandshake, same, ended, ne_eq, not_true_eq_false, if_false, Prod.mk.injEq, and_true]
  generalize scan input input {} = s at status key
  by_cases found : s.spIx = 0
  · simp [checkResponse, found]
  · have fits := status found
    have shape : (input ++ more).drop s.keyStart = input.drop s.keyStart ++ more :=
      drop_append_of_mem more key
    have notShort : ¬ input.length ≤ s.spIx + 3 := by omega
    have notShort' : ¬ (input ++ more).length ≤ s.spIx + 3 := by simp; omega
    simp only [checkResponse, found, notShort, notShort', or_self, if_false]
    rw [getD_append_of_lt more (by omega), getD_append_of_lt more (by omega),
      getD_append_of_lt more (by omega), shape, takeWhile_append_of_mem more (by decide) key]

/-- What a complete response took is inside the window, and is something. -/
theorem readHandshake_consumed {acceptKey input : List UInt8} {status : Status} {consumed : Nat}
    (answered : readHandshake acceptKey input = (status, some consumed)) :
    0 < consumed ∧ consumed ≤ input.length := by
  unfold readHandshake at answered
  by_cases ended : (scan input input {}).crlf = 4
  · have inside := (scan_window_complete ended).inside
    simp only [ended, ne_eq, not_true_eq_false, if_false, Prod.mk.injEq, Option.some.injEq] at answered
    omega
  · simp [ended] at answered

/-- A response is right or wrong. -/
theorem readHandshake_not_close {acceptKey input : List UInt8} {consumed : Option Nat} :
    readHandshake acceptKey input ≠ (.close, consumed) := by
  have checked : ∀ s, checkResponse acceptKey input s ≠ .close := by
    intro s
    unfold checkResponse
    split
    · simp
    split
    · simp
    · simp only
      split <;> simp
  unfold readHandshake
  simp only
  split
  · simp
  · intro same
    exact checked _ (Prod.mk.inj same).1

/-- A response that is not complete yet is left alone. -/
theorem readHandshake_waits {acceptKey input : List UInt8}
    (waits : (readHandshake acceptKey input).2 = none) :
    readHandshake acceptKey input = (.ok, none) := by
  unfold readHandshake at waits ⊢
  by_cases ended : (scan input input {}).crlf = 4
  · simp [ended] at waits
  · simp [ended]

/-! ## `write_control_frame`, `write_close` -/

/-- `CloseCode`; a codec can cast any other number to it. -/
inductive CloseCode where
  | normal
  | goingAway
  | protocolError
  | unsupported
  | invalidPayload
  | policyViolation
  | msgTooBig
  | mandatoryExt
  | internalError
  | other (code : UInt16)
  deriving DecidableEq, Repr

def CloseCode.toUInt16 : CloseCode → UInt16
  | .normal => 1000
  | .goingAway => 1001
  | .protocolError => 1002
  | .unsupported => 1003
  | .invalidPayload => 1007
  | .policyViolation => 1008
  | .msgTooBig => 1009
  | .mandatoryExt => 1010
  | .internalError => 1011
  | .other code => code

section Control

variable {ω : Type} (K : Crypto ω)

/-- The frame: its two header bytes, the mask, the masked payload. -/
def controlFrame (op : OpCode) (payload : Span) (w : ω) : List UInt8 × ω :=
  let (mask, w) := randomBytes K 4 w
  ([0x80 ||| op.toByte, 0x80 ||| payload.size.toUInt8] ++ mask ++
    payload.bytes.mapIdx (fun i b => mask.getD (i % 4) 0 ^^^ b), w)

/-- The bytes written to a window of `room` bytes; their number is what the source
returns. -/
def writeControlFrame (room : Nat) (op : OpCode) (payload : Span) (w : ω) : List UInt8 × ω :=
  if room < sizeAdd 6 payload.size ∨ 125 < payload.size then ([], w)
  else controlFrame K op payload w

/-- The code goes out in network byte order. -/
def writeClose (room : Nat) (code : CloseCode) (w : ω) : List UInt8 × ω :=
  writeControlFrame K room .close ⟨[(code.toUInt16 >>> 8).toUInt8, code.toUInt16.toUInt8], 2⟩ w

@[simp] theorem controlFrame_length (op : OpCode) (payload : Span) (w : ω) :
    (controlFrame K op payload w).1.length = 6 + payload.bytes.length := by
  simp [controlFrame]
  omega

theorem writeControlFrame_of_room {room : Nat} {op : OpCode} {payload : Span} (w : ω)
    (roomy : 6 + payload.size ≤ room) (short : payload.size ≤ 125) :
    writeControlFrame K room op payload w = controlFrame K op payload w := by
  have sum : sizeAdd 6 payload.size = 6 + payload.size := sizeAdd_of_lt (by omega)
  exact if_neg (by omega)

/-- A control frame fits its window, when its payload has no more bytes than it claims. -/
theorem writeControlFrame_fits {room : Nat} {op : OpCode} {payload : Span} (w : ω)
    (counted : payload.bytes.length ≤ payload.size) :
    (writeControlFrame K room op payload w).1.length ≤ room := by
  unfold writeControlFrame
  split
  · exact Nat.zero_le room
  · rename_i fits
    obtain ⟨roomy, short⟩ := not_or.mp fits
    have sum : sizeAdd 6 payload.size = 6 + payload.size := sizeAdd_of_lt (by omega)
    rw [controlFrame_length]
    omega

theorem writeClose_fits {room : Nat} {code : CloseCode} (w : ω) :
    (writeClose K room code w).1.length ≤ room :=
  writeControlFrame_fits K w (Nat.le_refl 2)

end Control

end Manet.Protocol
