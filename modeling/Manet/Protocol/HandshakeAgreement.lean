/-
# Manet.Protocol.HandshakeAgreement — the two ends of the opening handshake

What `make_handshake` sends, read as lines, and what `read_handshake` makes of an answer to
it.  The server is the one of the protocol: it splits the request at CRLF, looks for the
field `Sec-WebSocket-Key` and answers with the digest of its value.  Where the request's
parts are free of CR and LF, the request is the list of its lines (`request_lines`), and the
key it states is the one whose answer the client expects.

The response is read as in `ResponseLines`.  An earlier line that carries the name
`Sec-WebSocket-Accept` in another spelling is taken in place of the right one.
-/
import Manet.Protocol.Base64
import Manet.Protocol.ResponseLines
import Manet.Protocol.WebSocketSession

namespace Manet.Protocol

open Manet.Reactor

set_option autoImplicit false

/-! ## Splitting at CRLF -/

/-- The pieces between the CRLFs; there is always one. -/
def splitCrlf : List UInt8 → List (List UInt8)
  | [] => [[]]
  | 13 :: 10 :: rest => [] :: splitCrlf rest
  | b :: rest =>
      match splitCrlf rest with
      | [] => [[b]]
      | line :: lines => (b :: line) :: lines

example : splitCrlf [1, 13, 10, 13, 2, 13, 10] = [[1], [13, 2], []] := by decide

theorem splitCrlf_ne_nil (text : List UInt8) : splitCrlf text ≠ [] := by
  fun_cases splitCrlf text with simp_all

theorem splitCrlf_crlf (text : List UInt8) : splitCrlf (crlf ++ text) = [] :: splitCrlf text := rfl

/-- A byte that does not begin a CRLF belongs to the first piece. -/
theorem splitCrlf_cons {b : UInt8} {rest line : List UInt8} {lines : List (List UInt8)}
    (single : ∀ more, b = 13 → rest = 10 :: more → False) (cut : splitCrlf rest = line :: lines) :
    splitCrlf (b :: rest) = (b :: line) :: lines := by
  rw [splitCrlf, cut]
  exact single

/-- A CRLF separates wherever it stands: a CR in front of it does not pair with its CR. -/
theorem splitCrlf_append (u v : List UInt8) :
    splitCrlf (u ++ (crlf ++ v)) = splitCrlf u ++ splitCrlf v := by
  fun_induction splitCrlf u with
  | case1 => rfl
  | case2 rest ih => simp [splitCrlf, ih]
  | case3 b rest single none ih => exact absurd none (splitCrlf_ne_nil rest)
  | case4 b rest single line lines cut ih =>
      rw [cut] at ih
      apply splitCrlf_cons _ ih
      intro more cr lf
      cases rest with
      | nil => cases lf
      | cons a rest =>
          obtain ⟨rfl, -⟩ := List.cons.inj lf
          exact single rest cr rfl

/-- A clean line is one piece. -/
theorem splitCrlf_clean {line : List UInt8} (clean : Clean line) : splitCrlf line = [line] := by
  induction line with
  | nil => rfl
  | cons b line ih =>
      obtain ⟨cr, clean₁⟩ := not_or.mp (List.mem_cons.not.mp clean.1)
      obtain ⟨-, clean₂⟩ := not_or.mp (List.mem_cons.not.mp clean.2)
      exact splitCrlf_cons (fun _ same _ => cr same.symm) (ih ⟨clean₁, clean₂⟩)

/-- Clean lines are read back. -/
theorem splitCrlf_unlines {lines : List (List UInt8)} (clean : ∀ line ∈ lines, Clean line)
    (last : List UInt8) : splitCrlf (unlines lines ++ last) = lines ++ splitCrlf last := by
  induction lines with
  | nil => rfl
  | cons line later ih =>
      have here := clean line List.mem_cons_self
      have rest := ih fun l member => clean l (List.mem_cons_of_mem line member)
      rw [unlines_cons, List.append_assoc, List.append_assoc, splitCrlf_append,
        splitCrlf_clean here, rest]
      rfl

theorem eq_nil_of_splitCrlf {text : List UInt8} (one : splitCrlf text = [[]]) : text = [] := by
  fun_cases splitCrlf text with
  | case1 => rfl
  | case2 rest => exact absurd (List.cons.inj one).2 (splitCrlf_ne_nil rest)
  | case3 b rest single none => exact absurd none (splitCrlf_ne_nil rest)
  | case4 b rest single line lines cut =>
      rw [splitCrlf_cons single cut] at one
      cases one

/-- The empty line that ends a block of lines is its only one. -/
theorem block_end {lines : List (List UInt8)} (clean : ∀ line ∈ lines, Clean line ∧ line ≠ [])
    {u v : List UInt8} (found : unlines lines ++ crlf = u ++ (crlf ++ (crlf ++ v))) : v = [] := by
  have pieces : lines ++ [[], []] = splitCrlf u ++ ([] :: splitCrlf v) := by
    have cut := congrArg splitCrlf found
    rwa [splitCrlf_unlines fun l member => (clean l member).1, splitCrlf_append,
      splitCrlf_crlf] at cut
  rcases List.append_eq_append_iff.mp pieces with ⟨more, front, back⟩ | ⟨more, front, back⟩
  · -- the empty line is behind the lines
    cases more with
    | nil => exact eq_nil_of_splitCrlf (List.cons.inj back).2.symm
    | cons _ more =>
        have few := congrArg List.length back
        have piece := List.length_pos_of_ne_nil (splitCrlf_ne_nil v)
        simp only [List.length_cons, List.length_append, List.length_nil] at few
        omega
  · -- or it is one of them
    cases more with
    | nil => exact eq_nil_of_splitCrlf (List.cons.inj back).2
    | cons empty more =>
        have inside : [] ∈ lines := by
          rw [front, (List.cons.inj back).1]
          simp
        exact absurd rfl (clean [] inside).2

/-! ## The request -/

/-- The lines of the extra headers; a header without a name is left out. -/
def extraLines (extra : List Header) : List (List UInt8) :=
  (extra.filter fun h => !h.name.isEmpty).map fun h =>
    stringBytes h.name ++ stringBytes ": " ++ stringBytes h.value

def requestLines (host path : String) (key : List UInt8) (extra : List Header) : List (List UInt8) :=
  [stringBytes "GET " ++ stringBytes path ++ stringBytes " HTTP/1.1",
    stringBytes "Host: " ++ stringBytes host,
    stringBytes "Upgrade: websocket",
    stringBytes "Connection: Upgrade",
    stringBytes "Sec-WebSocket-Key: " ++ key,
    stringBytes "Sec-WebSocket-Version: 13"] ++ extraLines extra

theorem unlines_extraLines (extra : List Header) :
    (extra.map headerLine).flatten = unlines (extraLines extra) := by
  induction extra with
  | nil => rfl
  | cons h later ih =>
      by_cases empty : h.name.isEmpty = true
      · simp [extraLines, headerLine, empty, ih]
      · simp only [Bool.not_eq_true] at empty
        simp [extraLines, headerLine, empty, ih, crlf]

/-- The request is its lines and an empty one. -/
theorem request_lines {ω : Type} (K : Crypto ω) (host path : String) (extra : List Header) (w : ω) :
    (makeHandshake K host path extra w).1.upgradeRequest =
      unlines (requestLines host path (base64Encode (randomBytes K 16 w).1) extra) ++ crlf := by
  have get : stringBytes " HTTP/1.1\r\n" = stringBytes " HTTP/1.1" ++ crlf := by decide
  have upgrade : stringBytes "Upgrade: websocket\r\n" = stringBytes "Upgrade: websocket" ++ crlf := by
    decide
  have connection : stringBytes "Connection: Upgrade\r\n" =
      stringBytes "Connection: Upgrade" ++ crlf := by decide
  have version : stringBytes "Sec-WebSocket-Version: 13\r\n" =
      stringBytes "Sec-WebSocket-Version: 13" ++ crlf := by decide
  have ended : stringBytes "\r\n" = crlf := by decide
  simp only [makeHandshake, get, upgrade, connection, version, ended, unlines_extraLines,
    requestLines, unlines_append, unlines_cons, unlines_nil, List.append_assoc, List.append_nil]

/-! ## Base64 text -/

/-- Neither CR nor LF nor a space is in it. -/
theorem base64Encode_clean (input : List UInt8) :
    Clean (base64Encode input) ∧ 32 ∉ base64Encode input := by
  have outside : ∀ b, b ∉ base64Table → b ≠ 61 → b ∉ base64Encode input := by
    intro b table pad member
    rcases base64Encode_alphabet input b member with inside | same
    · exact table inside
    · exact pad same
  exact ⟨⟨outside 13 (by decide) (by decide), outside 10 (by decide) (by decide)⟩,
    outside 32 (by decide) (by decide)⟩

/-- Spaces in front of the text are all that is skipped. -/
theorem skip_spaces_base64 (n : Nat) (input : List UInt8) :
    (List.replicate n 32 ++ base64Encode input).dropWhile (· = 32) = base64Encode input := by
  rw [List.dropWhile_append_of_pos (by simp +contextual)]
  cases text : base64Encode input with
  | nil => rfl
  | cons b rest =>
      have other : b ≠ 32 := by
        rintro rfl
        exact (base64Encode_clean input).2 (text ▸ List.mem_cons_self)
      simp [other]

/-! ## The request's lines -/

theorem clean_append {u v : List UInt8} : Clean (u ++ v) ↔ Clean u ∧ Clean v := by
  simp only [Clean, List.mem_append, not_or]
  tauto

/-- What the caller puts into the request has neither CR nor LF. -/
structure CleanParts (host path : String) (extra : List Header) : Prop where
  host : Clean (stringBytes host)
  path : Clean (stringBytes path)
  names : ∀ h ∈ extra, Clean (stringBytes h.name)
  values : ∀ h ∈ extra, Clean (stringBytes h.value)

theorem extraLines_clean {host path : String} {extra : List Header}
    (parts : CleanParts host path extra) : ∀ line ∈ extraLines extra, Clean line ∧ line ≠ [] := by
  intro line member
  obtain ⟨h, kept, rfl⟩ := List.mem_map.mp member
  have inside := List.mem_of_mem_filter kept
  refine ⟨clean_append.mpr ⟨clean_append.mpr ⟨parts.names h inside, by decide⟩, parts.values h inside⟩, ?_⟩
  simp [show stringBytes ": " = [58, 32] from by decide]

theorem requestLines_clean {host path : String} {extra : List Header}
    (parts : CleanParts host path extra) (nonce : List UInt8) :
    ∀ line ∈ requestLines host path (base64Encode nonce) extra, Clean line ∧ line ≠ [] := by
  intro line member
  simp only [requestLines, List.mem_append, List.mem_cons, List.not_mem_nil, or_false] at member
  rcases member with (rfl | rfl | rfl | rfl | rfl | rfl) | later
  · refine ⟨clean_append.mpr ⟨clean_append.mpr ⟨by decide, parts.path⟩, by decide⟩, ?_⟩
    exact List.append_ne_nil_of_right_ne_nil _ (by decide)
  · exact ⟨clean_append.mpr ⟨by decide, parts.host⟩, List.append_ne_nil_of_left_ne_nil (by decide) _⟩
  · decide
  · decide
  · exact ⟨clean_append.mpr ⟨by decide, (base64Encode_clean nonce).1⟩,
      List.append_ne_nil_of_left_ne_nil (by decide) _⟩
  · decide
  · exact extraLines_clean parts line later

/-! ## The server's side -/

/-- The line is the field with this name and colon, in any case. -/
def isField (name line : List UInt8) : Bool := (line.take name.length).map toLower = name.map toLower

/-- What stands behind the colon and the spaces. -/
def fieldValue (name line : List UInt8) : List UInt8 := (line.drop name.length).dropWhile (· = 32)

def keyHeader : List UInt8 := stringBytes "Sec-WebSocket-Key:"

/-- The keys a request states, in order: the server splits it and skips the request line. -/
def statedKeys (request : List UInt8) : List (List UInt8) :=
  ((splitCrlf request).tail.filter (isField keyHeader)).map (fieldValue keyHeader)

/-- The header of an answer to a key. -/
def acceptFor {ω : Type} (K : Crypto ω) (spaces : Nat) (key : List UInt8) : List UInt8 :=
  acceptHeader ++ (List.replicate spaces 32 ++ base64Encode (K.sha1 (key ++ guid)))

/-- The status line, the header among others, and an empty line. -/
def answer {ω : Type} (K : Crypto ω) (reason : List UInt8) (before after : List (List UInt8))
    (spaces : Nat) (key : List UInt8) : List UInt8 :=
  unlines ((stringBytes "HTTP/1.1 101 " ++ reason) :: (before ++ acceptFor K spaces key :: after)) ++ crlf

section Agreement

variable {ω : Type} (K : Crypto ω)

/-- The key of the handshake is stated first; an extra header may state another. -/
theorem statedKeys_request {host path : String} {extra : List Header}
    (parts : CleanParts host path extra) (w : ω) :
    statedKeys (makeHandshake K host path extra w).1.upgradeRequest =
      base64Encode (randomBytes K 16 w).1 ::
        ((extraLines extra).filter (isField keyHeader)).map (fieldValue keyHeader) := by
  generalize nonce : (randomBytes K 16 w).1 = bytes
  have cut : splitCrlf (makeHandshake K host path extra w).1.upgradeRequest =
      requestLines host path (base64Encode bytes) extra ++ [[], []] := by
    rw [request_lines, nonce]
    exact splitCrlf_unlines (fun l member => (requestLines_clean parts bytes l member).1) crlf
  have host' : isField keyHeader (stringBytes "Host: " ++ stringBytes host) = false := by
    simp [isField, keyHeader, stringBytes, toLower]
  have name : stringBytes "Sec-WebSocket-Key: " = keyHeader ++ [32] := by decide
  have key : isField keyHeader (stringBytes "Sec-WebSocket-Key: " ++ base64Encode bytes) = true := by
    rw [name, List.append_assoc, isField, List.take_left]
    exact decide_eq_true rfl
  have value : fieldValue keyHeader (stringBytes "Sec-WebSocket-Key: " ++ base64Encode bytes) =
      base64Encode bytes := by
    rw [name, List.append_assoc, fieldValue, List.drop_left]
    exact skip_spaces_base64 1 bytes
  have fixed : isField keyHeader (stringBytes "Upgrade: websocket") = false ∧
      isField keyHeader (stringBytes "Connection: Upgrade") = false ∧
      isField keyHeader (stringBytes "Sec-WebSocket-Version: 13") = false ∧
      isField keyHeader [] = false := by decide
  obtain ⟨upgrade, connection, version, empty⟩ := fixed
  rw [statedKeys, cut]
  simp only [requestLines, List.cons_append, List.nil_append, List.tail_cons, List.filter_append,
    List.filter_cons, List.filter_nil, host', key, upgrade, connection, version, empty, if_true,
    Bool.false_eq_true, if_false, List.append_nil, List.map_cons, value]

section Answer

variable (spaces : Nat) (key : List UInt8)

theorem acceptFor_clean : Clean (acceptFor K spaces key) := by
  have blank : Clean (List.replicate spaces 32) :=
    ⟨fun member => absurd (List.eq_of_mem_replicate member) (by decide),
      fun member => absurd (List.eq_of_mem_replicate member) (by decide)⟩
  exact clean_append.mpr ⟨by decide, clean_append.mpr ⟨blank, (base64Encode_clean _).1⟩⟩

theorem acceptFor_isAccept : isAccept (acceptFor K spaces key) = true := by
  rw [acceptFor, isAccept, List.take_left]
  exact decide_eq_true ⟨rfl, rfl⟩

theorem acceptFor_value : acceptValue (acceptFor K spaces key) = (acceptKeyFor K key).toList := by
  rw [acceptFor, acceptValue, List.drop_left, skip_spaces_base64]
  rfl

variable (reason : List UInt8) (before after : List (List UInt8))

/-- The answer's first space, and the status behind it. -/
theorem answer_status : ∃ rest, answer K reason before after spaces key =
    stringBytes "HTTP/1.1" ++ 32 :: (49 :: 48 :: 49 :: rest) := by
  refine ⟨32 :: (reason ++ crlf ++ unlines (before ++ acceptFor K spaces key :: after) ++ crlf), ?_⟩
  rw [answer, unlines_cons, show stringBytes "HTTP/1.1 101 " =
    stringBytes "HTTP/1.1" ++ [32, 49, 48, 49, 32] from by decide]
  simp only [List.append_assoc, List.cons_append, List.nil_append]

variable {spaces key reason before after}

theorem answer_block (cleanReason : Clean reason)
    (clean : ∀ line ∈ before ++ after, Clean line ∧ line ≠ []) :
    Block (answer K reason before after spaces key) (stringBytes "HTTP/1.1 101 " ++ reason)
      (before ++ acceptFor K spaces key :: after) := by
  refine ⟨rfl, clean_append.mpr ⟨by decide, cleanReason⟩, fun l member => ?_⟩
  rcases List.mem_append.mp member with early | later
  · exact clean l (List.mem_append_left _ early)
  rcases List.mem_cons.mp later with rfl | late
  · exact ⟨acceptFor_clean K spaces key, List.append_ne_nil_of_left_ne_nil (by decide) _⟩
  · exact clean l (List.mem_append_right _ late)

/-- The right answer is taken, and nothing behind it. -/
theorem readHandshake_answer (trailing : List UInt8) (cleanReason : Clean reason)
    (clean : ∀ line ∈ before ++ after, Clean line ∧ line ≠ [])
    (foremost : ∀ line ∈ before, isAccept line = false) :
    readHandshake (acceptKeyFor K key).toList (answer K reason before after spaces key ++ trailing) =
      (.ok, some (answer K reason before after spaces key).length) := by
  have found : (before ++ acceptFor K spaces key :: after).find? isAccept =
      some (acceptFor K spaces key) := by
    rw [List.find?_append, List.find?_eq_none.mpr (by simpa using foremost),
      List.find?_cons_of_pos (acceptFor_isAccept K spaces key)]
    rfl
  obtain ⟨rest, status⟩ := answer_status K spaces key reason before after
  have space : spaceIn 0 0 (answer K reason before after spaces key) = 8 := by
    rw [status, spaceIn_first (by decide) (by decide)]
    decide
  have digits : ((answer K reason before after spaces key).drop 9).take 3 = [49, 48, 49] := by
    rw [status]
    rfl
  rw [readHandshake_block (answer_block K cleanReason clean)]
  simp only [checkLines, space, digits, keyOf, found, acceptFor_value, ne_eq, not_true_eq_false,
    or_false, OfNat.ofNat_ne_zero, if_false]

end Answer

/-- **The two ends agree on the handshake.** -/
theorem opening_handshake_agrees {host path : String} {extra : List Header}
    (parts : CleanParts host path extra) (w : ω) :
    let handshake := (makeHandshake K host path extra w).1
    let key := base64Encode (randomBytes K 16 w).1
    splitCrlf handshake.upgradeRequest = requestLines host path key extra ++ [[], []] ∧
    (∀ u v, handshake.upgradeRequest = u ++ (crlf ++ (crlf ++ v)) → v = []) ∧
    (statedKeys handshake.upgradeRequest).head? = some key ∧
    ((∀ line ∈ extraLines extra, isField keyHeader line = false) →
      statedKeys handshake.upgradeRequest = [key]) ∧
    ∀ k, (statedKeys handshake.upgradeRequest).head? = some k →
      ∀ (reason trailing : List UInt8) (before after : List (List UInt8)) (spaces : Nat),
        Clean reason → (∀ line ∈ before ++ after, Clean line ∧ line ≠ []) →
        (∀ line ∈ before, isAccept line = false) →
        readHandshake handshake.acceptKey.toList
            (answer K reason before after spaces k ++ trailing) =
          (.ok, some (answer K reason before after spaces k).length) := by
  have keys := statedKeys_request K parts w
  have clean := requestLines_clean parts (randomBytes K 16 w).1
  refine ⟨?_, fun u v found => ?_, ?_, fun unnamed => ?_, fun k first => ?_⟩
  · rw [request_lines]
    exact splitCrlf_unlines (fun l member => (clean l member).1) crlf
  · rw [request_lines] at found
    exact block_end clean found
  · rw [keys]
    rfl
  · rw [keys, List.filter_eq_nil_iff.mpr (by simpa using unnamed)]
    rfl
  · rw [keys] at first
    obtain rfl : base64Encode (randomBytes K 16 w).1 = k := Option.some.inj first
    intro reason trailing before after spaces cleanReason cleanLines foremost
    exact readHandshake_answer K trailing cleanReason cleanLines foremost

/-- Random bytes and a digest of zeros, and a header without a name. -/
theorem opening_handshake_agrees_zeros :
    let extra : List Header := [⟨"Origin", "manet"⟩, ⟨"", "unsent"⟩]
    let handshake := (makeHandshake (zeroCrypto : Crypto Unit) "localhost" "/" extra ()).1
    let response := answer (zeroCrypto : Crypto Unit) (stringBytes "OK") [stringBytes "Server: s"] [] 1
      (stringBytes "AAAAAAAAAAAAAAAAAAAAAA==")
    statedKeys handshake.upgradeRequest = [stringBytes "AAAAAAAAAAAAAAAAAAAAAA=="] ∧
      readHandshake handshake.acceptKey.toList (response ++ [0x81, 0]) = (.ok, some 82) := by
  have parts : CleanParts "localhost" "/" [⟨"Origin", "manet"⟩, ⟨"", "unsent"⟩] :=
    ⟨by decide, by decide, by decide, by decide⟩
  obtain ⟨-, -, first, only, answered⟩ :=
    opening_handshake_agrees (zeroCrypto : Crypto Unit) parts ()
  have key : base64Encode (randomBytes (zeroCrypto : Crypto Unit) 16 ()).1 =
      stringBytes "AAAAAAAAAAAAAAAAAAAAAA==" := by decide +kernel
  rw [key] at first only
  refine ⟨only (by decide +kernel), ?_⟩
  exact answered _ first (stringBytes "OK") [0x81, 0] [stringBytes "Server: s"] [] 1 (by decide)
    (by decide) (by decide)

/-- One header has the name as it is spelled, but one in front of it has it in capitals. -/
theorem accept_shadowed :
    let key := stringBytes "AAAAAAAAAAAAAAAAAAAAAA=="
    let before := [stringBytes "SEC-WEBSOCKET-ACCEPT: x"]
    ((before ++ [acceptFor (zeroCrypto : Crypto Unit) 1 key]).filter
      (acceptHeader.isPrefixOf ·)).length = 1 ∧
    readHandshake (acceptKeyFor (zeroCrypto : Crypto Unit) key).toList
      (answer (zeroCrypto : Crypto Unit) (stringBytes "OK") before [] 1 key) = (.error, some 96) := by
  decide +kernel

end Agreement

end Manet.Protocol
