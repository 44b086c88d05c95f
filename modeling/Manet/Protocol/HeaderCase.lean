/-
# Manet.Protocol.HeaderCase — the name of the accept header, in any case

HTTP header names have no case.  `read_handshake` compares the name with both sides folded, but
comes to the comparison only where it has seen an `S`: a name that begins with `s` is not
recognised, and what is compared with the key is then the next header that is, or the first
line.  `header_case_iff` says when a respelling changes nothing.  What the response takes from
the window never depends on it, and neither does the status line: folding the whole block
moves no space and makes no digit (`statusPasses_fold`).
-/
import Manet.Protocol.ResponseLines

namespace Manet.Protocol

open Manet.Reactor

set_option autoImplicit false

/-! ## Responses -/

/-- The name of the header and its colon, in any case. -/
structure Spelling where
  name : List UInt8
  same : name.map toLower = acceptHeader.map toLower

/-- As the source writes it. -/
def canonical : Spelling := ⟨acceptHeader, rfl⟩

/-- A response with the header somewhere in it: the lines around it, what stands behind its name,
and what follows the response. -/
structure Response where
  first : List UInt8
  before : List (List UInt8)
  value : List UInt8
  after : List (List UInt8)
  trailing : List UInt8
  first_clean : Clean first
  before_clean : ∀ line ∈ before, Clean line ∧ line ≠ []
  value_clean : Clean value
  after_clean : ∀ line ∈ after, Clean line ∧ line ≠ []

namespace Spelling

variable (s : Spelling)

theorem length_eq : s.name.length = acceptHeader.length := by
  have length := congrArg List.length s.same
  rwa [List.length_map, List.length_map] at length

theorem not_mem {b : UInt8} (fixed : toLower b = b) (other : b ∉ acceptHeader.map toLower) :
    b ∉ s.name := by
  intro member
  apply other
  rw [← s.same, ← fixed]
  exact List.mem_map_of_mem member

theorem clean : Clean s.name :=
  ⟨s.not_mem rfl cr_not_mem_header, s.not_mem rfl lf_not_mem_header⟩

theorem ne_nil : s.name ≠ [] := by
  intro empty
  have length := s.length_eq
  rw [empty] at length
  exact absurd length (by decide)

/-- Only the first letter decides whether the line is recognised. -/
theorem isAccept_iff (value : List UInt8) :
    isAccept (s.name ++ value) = true ↔ s.name.head? = some 83 := by
  have head : (s.name ++ value).head? = s.name.head? := List.head?_append_of_ne_nil _ s.ne_nil
  have name : (s.name ++ value).take acceptHeader.length = s.name := by
    rw [← s.length_eq]
    exact List.take_left
  unfold isAccept
  rw [decide_eq_true_iff, head, name]
  exact and_iff_left s.same

theorem acceptValue_eq (value : List UInt8) :
    acceptValue (s.name ++ value) = value.dropWhile (· = 32) := by
  rw [acceptValue, ← s.length_eq, List.drop_left]

end Spelling

namespace Response

variable (r : Response) (s : Spelling)

def headers : List (List UInt8) := r.before ++ (s.name ++ r.value) :: r.after

def block : List UInt8 := unlines (r.first :: r.headers s) ++ crlf

def bytes : List UInt8 := r.block s ++ r.trailing

theorem block_shape : Block (r.block s) r.first (r.headers s) := by
  refine ⟨rfl, r.first_clean, ?_⟩
  intro line member
  rcases List.mem_append.mp member with early | later
  · exact r.before_clean line early
  rcases List.mem_cons.mp later with rfl | behind
  · refine ⟨⟨?_, ?_⟩, by simp [s.ne_nil]⟩
    · simp [s.clean.1, r.value_clean.1]
    · simp [s.clean.2, r.value_clean.2]
  · exact r.after_clean line behind

/-- A name that is recognised gives the value, unless a header before it does. -/
theorem keyOf_capital (capital : s.name.head? = some 83) :
    keyOf r.first (r.headers s) = match r.before.find? isAccept with
      | some line => acceptValue line
      | none => r.value.dropWhile (· = 32) := by
  have here := (s.isAccept_iff r.value).mpr capital
  unfold keyOf headers
  rw [List.find?_append, List.find?_cons_of_pos here]
  cases r.before.find? isAccept with
  | some line => rfl
  | none => exact s.acceptValue_eq r.value

/-- A name that is not recognised might as well not be there. -/
theorem keyOf_small (small : s.name.head? ≠ some 83) :
    keyOf r.first (r.headers s) = keyOf r.first (r.before ++ r.after) := by
  have here : ¬ isAccept (s.name ++ r.value) = true := by
    rw [s.isAccept_iff]
    exact small
  unfold keyOf headers
  rw [List.find?_append, List.find?_cons_of_neg here, List.find?_append]

theorem block_fold (s s' : Spelling) : (r.block s).map toLower = (r.block s').map toLower := by
  simp only [block, headers, unlines, List.map_append, List.map_cons, List.flatten_append,
    List.flatten_cons, s.same, s'.same]

theorem block_length (s s' : Spelling) : (r.block s).length = (r.block s').length := by
  have length := congrArg List.length (r.block_fold s s')
  rwa [List.length_map, List.length_map] at length

end Response

/-! ## The status line -/

/-- The check of the bytes behind the first space. -/
def statusPasses (block : List UInt8) : Prop :=
  spaceIn 0 0 block ≠ 0 ∧ (block.drop (spaceIn 0 0 block + 1)).take 3 = [49, 48, 49]

theorem toLower_eq_iff {b c : UInt8} (letterless : c < 65) : toLower b = c ↔ b = c := by
  unfold toLower
  split
  · rename_i capital
    constructor
    · intro folded
      have low : (b + 32).toNat < 65 := by
        rw [folded]
        exact letterless
      have sum : (b + 32).toNat = (b.toNat + 32) % 256 := UInt8.toNat_add b 32
      have first : 65 ≤ b.toNat := capital.1
      have last : b.toNat ≤ 90 := capital.2
      omega
    · rintro rfl
      have first : 65 ≤ b.toNat := capital.1
      have low : b.toNat < 65 := letterless
      omega
  · exact Iff.rfl

theorem spaceIn_fold (found i : Nat) (u : List UInt8) :
    spaceIn found i (u.map toLower) = spaceIn found i u := by
  induction u generalizing found i with
  | nil => rfl
  | cons b u ih =>
      have space : toLower b = 32 ↔ b = 32 := toLower_eq_iff (by decide)
      simp only [List.map_cons, spaceIn, ih, space]

theorem digits_fold (l : List UInt8) : l.map toLower = [49, 48, 49] ↔ l = [49, 48, 49] := by
  have one : ∀ b, toLower b = 49 ↔ b = 49 := fun b => toLower_eq_iff (by decide)
  have zero : ∀ b, toLower b = 48 ↔ b = 48 := fun b => toLower_eq_iff (by decide)
  match l with
  | [] | [_] | [_, _] | _ :: _ :: _ :: _ :: _ => simp
  | [a, b, c] => simp [one, zero]

/-- **The status does not see the case of a letter.** -/
theorem statusPasses_fold {block block' : List UInt8}
    (same : block.map toLower = block'.map toLower) : statusPasses block ↔ statusPasses block' := by
  have space : spaceIn 0 0 block = spaceIn 0 0 block' := by
    rw [← spaceIn_fold 0 0 block, same, spaceIn_fold]
  have three : ∀ n, (block.drop n).take 3 = [49, 48, 49] ↔ (block'.drop n).take 3 = [49, 48, 49] := by
    intro n
    have folded : ((block.drop n).take 3).map toLower = ((block'.drop n).take 3).map toLower := by
      rw [List.map_take, List.map_take, List.map_drop, List.map_drop, same]
    rw [← digits_fold, folded, digits_fold]
  unfold statusPasses
  rw [space, three]

theorem checkLines_ok_iff {acceptKey block first : List UInt8} {headers : List (List UInt8)} :
    checkLines acceptKey block first headers = .ok ↔
      statusPasses block ∧ keyOf first headers = acceptKey := by
  constructor
  · intro ok
    obtain ⟨space, digits, key⟩ := checkLines_ok ok
    exact ⟨⟨space, digits⟩, key⟩
  · rintro ⟨⟨space, digits⟩, key⟩
    unfold checkLines
    simp only [space, digits, key, ne_eq, not_true_eq_false, or_self, if_false]

/-! ## A respelling -/

/-- **The case of the name changes nothing exactly when** the name still begins with `S`, or the
other lines give the key as well.  What is consumed is the same in any case. -/
theorem header_case_iff (acceptKey : Vector UInt8 28) (r : Response)
    (acceptable : (readHandshake acceptKey.toList (r.bytes canonical)).1 = .ok) (s : Spelling) :
    (readHandshake acceptKey.toList (r.bytes s)).2 =
        (readHandshake acceptKey.toList (r.bytes canonical)).2 ∧
      ((readHandshake acceptKey.toList (r.bytes s)).1 =
          (readHandshake acceptKey.toList (r.bytes canonical)).1 ↔
        s.name.head? = some 83 ∨ keyOf r.first (r.before ++ r.after) = acceptKey.toList) := by
  have read : ∀ s, readHandshake acceptKey.toList (r.bytes s) =
      (checkLines acceptKey.toList (r.block s) r.first (r.headers s), some (r.block s).length) :=
    fun s => readHandshake_block (r.block_shape s) acceptKey.toList r.trailing
  rw [acceptable, read s, read canonical, r.block_length s canonical]
  rw [read canonical] at acceptable
  obtain ⟨status, key⟩ := checkLines_ok_iff.mp acceptable
  rw [statusPasses_fold (r.block_fold canonical s)] at status
  rw [r.keyOf_capital canonical rfl] at key
  refine ⟨rfl, ?_⟩
  rw [checkLines_ok_iff, and_iff_right status]
  by_cases capital : s.name.head? = some 83
  · rw [r.keyOf_capital s capital, key]
    simp [capital]
  · rw [r.keyOf_small s capital]
    simp [capital]

/-- The shortest response there is. -/
def bareResponse : Response where
  first := responseLine
  before := []
  value := 32 :: zeroKey.toList
  after := []
  trailing := []
  first_clean := by decide
  before_clean := by decide
  value_clean := by decide
  after_clean := by decide

/-- In capitals the name is recognised. -/
theorem header_case_capitals :
    (readHandshake zeroKey.toList (bareResponse.bytes canonical)).1 = .ok ∧
      (readHandshake zeroKey.toList
        (bareResponse.bytes ⟨stringBytes "SEC-WEBSOCKET-ACCEPT:", by decide⟩)).1 = .ok := by
  have written : (readHandshake zeroKey.toList (bareResponse.bytes canonical)).1 = .ok := by
    decide +kernel
  have same := header_case_iff zeroKey bareResponse written
    ⟨stringBytes "SEC-WEBSOCKET-ACCEPT:", by decide⟩
  refine ⟨written, ?_⟩
  rw [← written]
  exact same.2.mpr (.inl (by decide))

/-- In small letters it is not: the response is refused. -/
theorem small_name_refused :
    (readHandshake zeroKey.toList (bareResponse.bytes canonical)).1 = .ok ∧
      (readHandshake zeroKey.toList
        (bareResponse.bytes ⟨stringBytes "sec-websocket-accept:", by decide⟩)).1 = .error := by
  constructor
  · decide +kernel
  · decide +kernel

end Manet.Protocol
