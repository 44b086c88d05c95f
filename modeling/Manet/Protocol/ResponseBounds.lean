/-
# Manet.Protocol.ResponseBounds — what `read_handshake` reads

The model of `read_handshake` again, with every byte it indexes and every span or view it forms
(`Access`) beside what it computes; `tracedHandshake_fst` says that it computes the same.  Most
cursors are guarded.  Three are not:

* the loop over the spaces behind the header's name has no bound, and runs out of a window that
  is cut there (`CutInSpaces`);
* `subspan(ws_key_start, 28)` is formed before the length of the value is known;
* with logging compiled in, the dump of a response that is not complete is a byte too long.

`in_bounds_iff` says that these are all, and when each of them is out of bounds.
-/
import Manet.Protocol.ResponseFraming

namespace Manet.Protocol

open Manet.Reactor

set_option autoImplicit false

/-! ## The accesses -/

/-- A byte that is read, or a span or view that is formed. -/
inductive Access where
  | byte (i : Nat)
  | view (start count : Nat)
  deriving DecidableEq, Repr

def Access.Inside (size : Nat) : Access → Prop
  | .byte i => i < size
  | .view start count => start + count ≤ size

/-- All of them lie inside the window. -/
def Inside (size : Nat) (accesses : List Access) : Prop := ∀ a ∈ accesses, a.Inside size

section Inside

variable {size : Nat}

theorem inside_nil : Inside size [] := fun _ member => absurd member List.not_mem_nil

theorem inside_append {u v : List Access} : Inside size (u ++ v) ↔ Inside size u ∧ Inside size v :=
  List.forall_mem_append

theorem inside_cons {a : Access} {u : List Access} :
    Inside size (a :: u) ↔ a.Inside size ∧ Inside size u :=
  List.forall_mem_cons

end Inside

/-! ## `read_handshake` with its accesses -/

/-- The loop over the spaces: `rest` is the window from `k` on, and a byte is read to end it. -/
def tracedSkip (k : Nat) : List UInt8 → Nat × List Access
  | [] => (k, [.byte k])
  | b :: rest =>
      if b = 32 then
        let (end', reads) := tracedSkip (k + 1) rest
        (end', .byte k :: reads)
      else (k, [.byte k])

/-- The search for the header at a byte of the scan; the view is the one that is compared with the
header's name. -/
def tracedHeader (input : List UInt8) (s : Scan) (chr : UInt8) : Nat × List Access :=
  if s.keyStart = 0 ∧ s.crlf = 2 ∧ chr = 83 ∧ s.i + acceptHeader.length < input.length then
    if headerAt input s.i then
      let (end', reads) :=
        tracedSkip (s.i + acceptHeader.length) (input.drop (s.i + acceptHeader.length))
      (end', .view s.i acceptHeader.length :: reads)
    else (s.keyStart, [.view s.i acceptHeader.length])
  else (s.keyStart, [])

def tracedByte (input : List UInt8) (s : Scan) (chr : UInt8) : Scan × List Access :=
  let spIx := if s.spIx = 0 ∧ chr = 32 then s.i else s.spIx
  let (keyStart, reads) := tracedHeader input s chr
  (⟨s.i, advanceCrlfCount s.crlf chr, spIx, keyStart⟩, .byte s.i :: reads)

def tracedScan (input : List UInt8) : List UInt8 → Scan → Scan × List Access
  | [], s => (s, [])
  | chr :: rest, s =>
      let (s, reads) := tracedByte input s chr
      if s.crlf = 4 then (s, reads)
      else
        let (end', later) := tracedScan input rest { s with i := s.i + 1 }
        (end', reads ++ later)

/-- The loop over the key, which has a bound. -/
def tracedKey (k : Nat) : List UInt8 → List UInt8 × List Access
  | [] => ([], [])
  | b :: rest =>
      if b ≠ 13 ∧ b ≠ 10 then
        let (key, reads) := tracedKey (k + 1) rest
        (b :: key, .byte k :: reads)
      else ([], [.byte k])

/-- The checks on a complete response.  A status that is not 101 is read again for the log. -/
def tracedCheck (acceptKey input : List UInt8) (s : Scan) : Status × List Access :=
  let byte k := Access.byte (s.spIx + k)
  let logged := [byte 1, byte 2, byte 3]
  if s.spIx = 0 ∨ input.length ≤ s.spIx + 3 then (.error, [])
  else if input.getD (s.spIx + 1) 0 ≠ 49 then (.error, byte 1 :: logged)
  else if input.getD (s.spIx + 2) 0 ≠ 48 then (.error, byte 1 :: byte 2 :: logged)
  else if input.getD (s.spIx + 3) 0 ≠ 49 then (.error, byte 1 :: byte 2 :: byte 3 :: logged)
  else
    let (got, reads) := tracedKey s.keyStart (input.drop s.keyStart)
    (if got ≠ acceptKey then .error else .ok,
      [byte 1, byte 2, byte 3] ++ (reads ++ [.view s.keyStart 28, .view s.keyStart got.length]))

/-- `logging` is `log::enabled`. -/
def tracedHandshake (logging : Bool) (acceptKey input : List UInt8) :
    (Status × Option Nat) × List Access :=
  let (s, reads) := tracedScan input input {}
  let dump := if logging then [Access.view 0 (s.i + 1)] else []
  if s.crlf ≠ 4 then ((.ok, none), reads ++ dump)
  else
    let (status, checked) := tracedCheck acceptKey input s
    ((status, some (s.i + 1)), reads ++ (dump ++ checked))

/-! The accesses are beside what is computed. -/

theorem tracedSkip_fst (k : Nat) (rest : List UInt8) :
    (tracedSkip k rest).1 = k + (rest.takeWhile (· = 32)).length := by
  induction rest generalizing k with
  | nil => rfl
  | cons b rest ih =>
      unfold tracedSkip
      by_cases space : b = 32
      · simp only [space, if_true, ih, decide_true, List.takeWhile_cons, List.length_cons]
        omega
      · simp [space]

theorem tracedHeader_fst (input : List UInt8) (s : Scan) (chr : UInt8) :
    (tracedHeader input s chr).1 = (scanByte input s chr).keyStart := by
  have guarded : headerAt input s.i = true → s.i + acceptHeader.length < input.length :=
    fun found => (of_decide_eq_true found).1
  unfold tracedHeader scanByte
  by_cases named : s.keyStart = 0 ∧ s.crlf = 2 ∧ chr = 83
  · obtain ⟨none, two, capital⟩ := named
    by_cases found : headerAt input s.i = true
    · simp [none, two, capital, found, guarded found, tracedSkip_fst, skipSpaces]
    · by_cases roomy : s.i + acceptHeader.length < input.length
      · simp [none, two, capital, found, roomy]
      · simp [none, two, capital, found, roomy]
  · have other : ∀ p : Prop, ¬ (s.keyStart = 0 ∧ s.crlf = 2 ∧ chr = 83 ∧ p) :=
      fun p found => named ⟨found.1, found.2.1, found.2.2.1⟩
    rw [if_neg (other _), if_neg (other _)]

theorem tracedByte_fst (input : List UInt8) (s : Scan) (chr : UInt8) :
    (tracedByte input s chr).1 = scanByte input s chr := by
  unfold tracedByte
  simp only [tracedHeader_fst]
  rfl

theorem tracedScan_fst (input : List UInt8) : ∀ (rest : List UInt8) (s : Scan),
    (tracedScan input rest s).1 = scan input rest s
  | [], _ => rfl
  | chr :: rest, s => by
      have ih := tracedScan_fst input rest
      rw [tracedScan, scan]
      simp only [tracedByte_fst]
      split
      · rfl
      · exact ih _

theorem tracedKey_fst (k : Nat) (rest : List UInt8) :
    (tracedKey k rest).1 = rest.takeWhile fun b => b ≠ 13 ∧ b ≠ 10 := by
  induction rest generalizing k with
  | nil => rfl
  | cons b rest ih =>
      unfold tracedKey
      by_cases inside : b ≠ 13 ∧ b ≠ 10
      · simp [inside, ih]
      · simp only [inside, if_false, List.takeWhile_cons, decide_false]
        rfl

theorem tracedCheck_fst (acceptKey input : List UInt8) (s : Scan) :
    (tracedCheck acceptKey input s).1 = checkResponse acceptKey input s := by
  unfold tracedCheck checkResponse
  by_cases short : s.spIx = 0 ∨ input.length ≤ s.spIx + 3
  · simp only [short, if_true]
  by_cases first : input.getD (s.spIx + 1) 0 = 49
  · by_cases second : input.getD (s.spIx + 2) 0 = 48
    · by_cases third : input.getD (s.spIx + 3) 0 = 49
      · simp only [short, first, second, third, ne_eq, not_true_eq_false, or_self, if_false,
          tracedKey_fst]
      · simp only [short, first, second, third, ne_eq, not_true_eq_false, not_false_eq_true,
          false_or, if_false, if_true]
    · simp only [short, first, second, ne_eq, not_true_eq_false, not_false_eq_true, true_or,
        false_or, if_false, if_true]
  · simp only [short, first, ne_eq, not_false_eq_true, true_or, if_false, if_true]

/-- **The model with accesses computes what the model does.** -/
theorem tracedHandshake_fst (logging : Bool) (acceptKey input : List UInt8) :
    (tracedHandshake logging acceptKey input).1 = readHandshake acceptKey input := by
  unfold tracedHandshake readHandshake
  simp only [tracedScan_fst]
  split
  · rfl
  · simp only [tracedCheck_fst]

/-! ## The loop over the spaces -/

/-- The scan comes to the header's name, finds it for the first time, and finds nothing but spaces
from there to the end of the window. -/
structure CutInSpaces (input : List UInt8) (j : Nat) : Prop where
  open' : ∀ k ≤ j, crlfCount (input.take k) ≠ 4
  named : namedAt input j = true
  first : ∀ k < j, namedAt input k = false
  spaces : ∀ b ∈ input.drop (j + acceptHeader.length), b = 32

theorem tracedSkip_inside (k : Nat) (rest : List UInt8) :
    Inside (k + rest.length) (tracedSkip k rest).2 ↔ ¬ ∀ b ∈ rest, b = 32 := by
  induction rest generalizing k with
  | nil => simp [tracedSkip, Inside, Access.Inside]
  | cons b rest ih =>
      have here : (Access.byte k).Inside (k + (b :: rest).length) := by
        show k < k + (b :: rest).length
        simp
      have size : k + (b :: rest).length = k + 1 + rest.length := by
        simp only [List.length_cons]
        omega
      unfold tracedSkip
      by_cases space : b = 32
      · simp only [space, if_true, inside_cons, List.forall_mem_cons, true_and]
        rw [← ih (k + 1), ← size, ← space]
        exact and_iff_right here
      · simp only [space, if_false, inside_cons, List.forall_mem_cons, false_and, not_false_eq_true,
          iff_true]
        exact ⟨here, inside_nil⟩

theorem valueStart_zero_iff {input : List UInt8} {k : Nat} :
    valueStart input k = 0 ↔ ∀ j < k, namedAt input j = false := by
  unfold valueStart
  cases found : (List.range k).find? (namedAt input) with
  | some j =>
      have named := List.find?_some found
      have early := List.mem_range.mp (List.mem_of_find?_eq_some found)
      constructor
      · intro zero
        exact absurd zero (skipSpaces_header_pos input j)
      · intro none
        rw [none j early] at named
        cases named
  | none =>
      rw [List.find?_eq_none] at found
      refine iff_of_true rfl ?_
      intro j early
      exact Bool.eq_false_iff.mpr (found j (List.mem_range.mpr early))

section Step

variable {input pre rest : List UInt8} {chr : UInt8} (shape : input = pre ++ chr :: rest)
include shape

/-- **One byte of the scan** reads inside the window unless it is the beginning of a header that
is cut in its spaces. -/
theorem tracedByte_inside (going : ∀ k ≤ pre.length, crlfCount (pre.take k) ≠ 4) :
    Inside input.length (tracedByte input (cursors input pre.length pre) chr).2 ↔
      ¬ CutInSpaces input pre.length := by
  have before : input.take pre.length = pre := by rw [shape, List.take_left]
  have here : input[pre.length]? = some chr := by simp [shape]
  have opened : ∀ k ≤ pre.length, crlfCount (input.take k) ≠ 4 := by
    intro k early
    rw [shape, List.take_append_of_le_length early]
    exact going k early
  have byte : (Access.byte pre.length).Inside input.length := by
    show pre.length < input.length
    simp [shape]
  have named : namedAt input pre.length = true ↔
      crlfCount pre = 2 ∧ chr = 83 ∧ headerAt input pre.length = true := by
    simp [namedAt, before, here]
  show Inside input.length
    (.byte pre.length :: (tracedHeader input (cursors input pre.length pre) chr).2) ↔ _
  rw [inside_cons, and_iff_right byte]
  unfold tracedHeader
  split
  · rename_i found
    obtain ⟨none, two, capital, roomy⟩ := found
    have view : (Access.view pre.length acceptHeader.length).Inside input.length :=
      Nat.le_of_lt roomy
    split
    · rename_i header
      have window : input.length = (pre.length + acceptHeader.length) +
          (input.drop (pre.length + acceptHeader.length)).length := by
        have room : pre.length + acceptHeader.length < input.length := roomy
        rw [List.length_drop]
        omega
      have skipped := tracedSkip_inside (pre.length + acceptHeader.length)
        (input.drop (pre.length + acceptHeader.length))
      rw [← window] at skipped
      refine (inside_cons.trans (and_iff_right view)).trans (skipped.trans (not_iff_not.mpr ?_))
      constructor
      · intro spaces
        exact ⟨opened, named.mpr ⟨two, capital, header⟩, valueStart_zero_iff.mp none, spaces⟩
      · intro cut
        exact cut.spaces
    · rename_i header
      refine iff_of_true (inside_cons.mpr ⟨view, inside_nil⟩) ?_
      intro cut
      exact header (named.mp cut.named).2.2
  · rename_i found
    refine iff_of_true inside_nil ?_
    intro cut
    obtain ⟨two, capital, header⟩ := named.mp cut.named
    exact found ⟨valueStart_zero_iff.mpr cut.first, two, capital, (of_decide_eq_true header).1⟩

end Step

theorem not_cut_of_end {input : List UInt8} {j : Nat} (past : input.length ≤ j) :
    ¬ CutInSpaces input j := by
  intro cut
  have header : headerAt input j = true := (of_decide_eq_true cut.named).2.2
  have inside := (of_decide_eq_true header).1
  omega

/-- **The scan from `pre` on** reads inside the window unless a header from there on is cut. -/
theorem tracedScan_inside {input : List UInt8} : ∀ (pre rest : List UInt8), input = pre ++ rest →
    (∀ k ≤ pre.length, crlfCount (pre.take k) ≠ 4) →
    (Inside input.length (tracedScan input rest (cursors input pre.length pre)).2 ↔
      ∀ j ≥ pre.length, ¬ CutInSpaces input j)
  | pre, [], shape, _ => by
      refine iff_of_true inside_nil ?_
      intro j past
      exact not_cut_of_end (by simpa [shape] using past)
  | pre, chr :: rest, shape, going => by
      have step := tracedByte_inside shape going
      have next : (tracedByte input (cursors input pre.length pre) chr).1 =
          cursors input pre.length (pre ++ [chr]) := by
        rw [tracedByte_fst, scanByte_cursors shape]
      have front : input.take (pre.length + 1) = pre ++ [chr] := by
        rw [shape, List.take_length_add_append]
        rfl
      rw [tracedScan]
      simp only [next]
      by_cases last : crlfCount (pre ++ [chr]) = 4
      · -- the scan stops here, so no header behind is come to
        rw [if_pos (show (cursors input pre.length (pre ++ [chr])).crlf = 4 from last), step]
        constructor
        · intro here j past
          rcases Nat.eq_or_lt_of_le past with rfl | later
          · exact here
          · intro cut
            have four := cut.open' (pre.length + 1) later
            rw [front] at four
            exact four last
        · intro none
          exact none pre.length (Nat.le_refl _)
      · have longer : ∀ k ≤ (pre ++ [chr]).length, crlfCount ((pre ++ [chr]).take k) ≠ 4 := by
          intro k _
          rcases Nat.lt_or_ge pre.length k with past | early
          · rw [List.take_of_length_le (by simp; omega)]
            exact last
          · rw [List.take_append_of_le_length early]
            exact going k early
        have next' : input = (pre ++ [chr]) ++ rest := by simp [shape]
        have again := tracedScan_inside (pre ++ [chr]) rest next' longer
        have length : (pre ++ [chr]).length = pre.length + 1 := by simp
        rw [length] at again
        rw [if_neg (show ¬ (cursors input pre.length (pre ++ [chr])).crlf = 4 from last)]
        simp only [inside_append]
        rw [step]
        change _ ∧ Inside input.length
          (tracedScan input rest (cursors input (pre.length + 1) (pre ++ [chr]))).2 ↔ _
        rw [again]
        constructor
        · rintro ⟨here, later⟩ j past
          rcases Nat.eq_or_lt_of_le past with rfl | behind
          · exact here
          · exact later j behind
        · intro none
          exact ⟨none pre.length (Nat.le_refl _), fun j past => none j (by omega)⟩

/-! ## The checks -/

theorem tracedKey_inside (k : Nat) (rest : List UInt8) :
    Inside (k + rest.length) (tracedKey k rest).2 := by
  induction rest generalizing k with
  | nil => exact inside_nil
  | cons b rest ih =>
      have here : (Access.byte k).Inside (k + (b :: rest).length) := by
        show k < k + (b :: rest).length
        simp
      have size : k + (b :: rest).length = k + 1 + rest.length := by
        simp only [List.length_cons]
        omega
      unfold tracedKey
      split
      · refine inside_cons.mpr ⟨here, ?_⟩
        rw [size]
        exact ih (k + 1)
      · exact inside_cons.mpr ⟨here, inside_nil⟩

/-- **The checks** read inside the window, but for the 28 bytes that are taken where the status
is 101. -/
theorem tracedCheck_inside {acceptKey input : List UInt8} {s : Scan}
    (inside : s.keyStart ≤ input.length) :
    Inside input.length (tracedCheck acceptKey input s).2 ↔
      (s.spIx ≠ 0 → s.spIx + 3 < input.length → (input.drop (s.spIx + 1)).take 3 = [49, 48, 49] →
        s.keyStart + 28 ≤ input.length) := by
  have key : Inside input.length (tracedKey s.keyStart (input.drop s.keyStart)).2 := by
    have reads := tracedKey_inside s.keyStart (input.drop s.keyStart)
    rwa [List.length_drop, Nat.add_sub_cancel' inside] at reads
  have got : (Access.view s.keyStart
      (tracedKey s.keyStart (input.drop s.keyStart)).1.length).Inside input.length := by
    have short := (List.takeWhile_prefix (fun b : UInt8 => decide (b ≠ 13 ∧ b ≠ 10))
      (l := input.drop s.keyStart)).length_le
    rw [List.length_drop] at short
    rw [tracedKey_fst]
    show s.keyStart + _ ≤ input.length
    omega
  unfold tracedCheck
  simp only
  split
  · rename_i short
    refine iff_of_true inside_nil ?_
    intro found long
    omega
  rename_i found
  obtain ⟨-, long⟩ := not_or.mp found
  have three := take_three (a := 49) (b := 48) (c := 49) (Nat.lt_of_not_le long)
  have byte : ∀ k ≤ 3, (Access.byte (s.spIx + k)).Inside input.length := by
    intro k small
    show s.spIx + k < input.length
    omega
  have logged : Inside input.length [.byte (s.spIx + 1), .byte (s.spIx + 2), .byte (s.spIx + 3)] := by
    simp [inside_cons, inside_nil, byte]
  split
  · rename_i first
    refine iff_of_true (inside_cons.mpr ⟨byte 1 (by decide), logged⟩) ?_
    intro _ _ digits
    exact absurd (three.mp digits).1 first
  split
  · rename_i second
    refine iff_of_true (by simp [inside_cons, byte, inside_nil]) ?_
    intro _ _ digits
    exact absurd (three.mp digits).2.1 second
  split
  · rename_i third
    refine iff_of_true (by simp [inside_cons, byte, inside_nil]) ?_
    intro _ _ digits
    exact absurd (three.mp digits).2.2 third
  · rename_i first second third
    have digits := three.mpr ⟨not_not.mp first, not_not.mp second, not_not.mp third⟩
    constructor
    · intro reads _ _ _
      have taken := (inside_append.mp (inside_append.mp reads).2).2
      exact (inside_cons.mp taken).1
    · intro roomy
      have taken := roomy (by omega) (by omega) digits
      refine inside_append.mpr ⟨logged, inside_append.mpr ⟨key, ?_⟩⟩
      exact inside_cons.mpr ⟨taken, inside_cons.mpr ⟨got, inside_nil⟩⟩

/-! ## The whole window -/

/-- The 28 bytes where the key should stand are in the window: behind the first header that is
recognised, or at the very beginning where there is none. -/
structure KeyInside (input block : List UInt8) : Prop where
  headed : ∀ j < block.length, namedAt input j = true → (∀ k < j, namedAt input k = false) →
    skipSpaces input (j + acceptHeader.length) + 28 ≤ input.length
  bare : (∀ j < block.length, namedAt input j = false) → 28 ≤ input.length

/-- What keeps the three cursors in the window. -/
structure Windowed (logging : Bool) (input : List UInt8) : Prop where
  spaces : ∀ j, ¬ CutInSpaces input j
  key : ∀ block, block <+: input → Ended block → statusOf block = [49, 48, 49] →
    KeyInside input block
  dump : logging = true → ∃ block, block <+: input ∧ Ended block

/-- Every byte that is read and every span that is formed lies inside the window. -/
def InBounds (logging : Bool) (acceptKey input : List UInt8) : Prop :=
  Inside input.length (tracedHandshake logging acceptKey input).2

theorem keyInside_iff (input block : List UInt8) :
    KeyInside input block ↔ valueStart input block.length + 28 ≤ input.length := by
  unfold valueStart
  cases found : (List.range block.length).find? (namedAt input) with
  | some j =>
      obtain ⟨named, member, first⟩ := List.find?_range_eq_some.mp found
      have early := List.mem_range.mp member
      have none : ∀ k < j, namedAt input k = false := by
        intro k before
        simpa using first k before
      constructor
      · intro inside
        exact inside.headed j early named none
      · intro roomy
        refine ⟨fun i early' named' none' => ?_, fun absent => ?_⟩
        · -- there is one first header
          rcases Nat.lt_trichotomy i j with before | rfl | behind
          · rw [none i before] at named'
            cases named'
          · exact roomy
          · rw [none' j behind] at named
            cases named
        · rw [absent j early] at named
          cases named
  | none =>
      have absent : ∀ j < block.length, namedAt input j = false := by
        intro j early
        exact Bool.eq_false_iff.mpr (List.find?_eq_none.mp found j (List.mem_range.mpr early))
      constructor
      · intro inside
        have roomy := inside.bare absent
        show 0 + 28 ≤ input.length
        omega
      · intro roomy
        have whole : 0 + 28 ≤ input.length := roomy
        refine ⟨fun j early named => ?_, fun _ => by omega⟩
        rw [absent j early] at named
        cases named

/-- The status is read inside the block. -/
theorem status_of_ended {block : List UInt8} (ended : Ended block) (trailing : List UInt8) :
    (spaceIn 0 0 block ≠ 0 ∧ spaceIn 0 0 block + 3 < (block ++ trailing).length ∧
        ((block ++ trailing).drop (spaceIn 0 0 block + 1)).take 3 = [49, 48, 49]) ↔
      statusOf block = [49, 48, 49] := by
  have scanned := ended.scan
  have done : (scan block block {}).crlf = 4 := by
    rw [scanned]
    exact ended.1
  have complete := (scan_window_complete done).status
  rw [scanned] at complete
  rw [statusOf_eq_iff, not_or, not_not]
  refine and_congr_right fun found => ?_
  have inside : spaceIn 0 0 block + 3 < block.length := complete found
  have longer : spaceIn 0 0 block + 3 < (block ++ trailing).length := by
    rw [List.length_append]
    omega
  have window : ((block ++ trailing).drop (spaceIn 0 0 block + 1)).take 3 =
      (block.drop (spaceIn 0 0 block + 1)).take 3 := by
    rw [List.drop_append_of_le_length (by omega), List.take_append_of_le_length]
    rw [List.length_drop]
    omega
  rw [window, and_iff_right longer]

/-- A scan that does not find the end has gone through all of the window. -/
theorem scan_open_i {input : List UInt8} : ∀ (rest : List UInt8) (s : Scan),
    (scan input rest s).crlf ≠ 4 → (scan input rest s).i = s.i + rest.length
  | [], _, _ => rfl
  | chr :: rest, s, opened => by
      rw [scan] at opened ⊢
      by_cases last : (scanByte input s chr).crlf = 4
      · simp only [last, if_true] at opened
        exact absurd rfl opened
      · simp only [last, if_false] at opened ⊢
        rw [scan_open_i rest _ opened]
        show s.i + 1 + rest.length = s.i + (rest.length + 1)
        omega

section Whole

variable (logging : Bool) (acceptKey : List UInt8) {input : List UInt8}

theorem tracedScan_window :
    Inside input.length (tracedScan input input {}).2 ↔ ∀ j, ¬ CutInSpaces input j := by
  have run : Inside input.length (tracedScan input input {}).2 ↔
      ∀ j ≥ 0, ¬ CutInSpaces input j := tracedScan_inside [] input rfl (by simp [crlfCount])
  rw [run]
  exact ⟨fun none j => none j (Nat.zero_le j), fun none j _ => none j⟩

/-- Of a response that is not complete, only the spaces and the dump can be out of bounds. -/
theorem inBounds_of_open (opened : (scan input input {}).crlf ≠ 4) :
    InBounds logging acceptKey input ↔ Windowed logging input := by
  have none : ∀ block, block <+: input → ¬ Ended block := by
    intro block front ended
    have taken : input.take block.length = block := (List.prefix_iff_eq_take.mp front).symm
    have consumed : (readHandshake acceptKey input).2 = some block.length :=
      readHandshake_consumes_iff.mpr ⟨front.length_le, by rwa [taken]⟩
    simp [readHandshake, opened] at consumed
  have read : (scan input input {}).i = input.length := by
    rw [scan_open_i input {} opened]
    exact Nat.zero_add _
  have dump : ¬ (Access.view 0 ((scan input input {}).i + 1)).Inside input.length := by
    rw [read]
    show ¬ 0 + (input.length + 1) ≤ input.length
    omega
  unfold InBounds tracedHandshake
  simp only [tracedScan_fst, opened, ne_eq, not_false_eq_true, if_true, inside_append]
  rw [tracedScan_window]
  cases logging with
  | true =>
      refine iff_of_false ?_ ?_
      · rintro ⟨-, dumped⟩
        exact dump (inside_cons.mp dumped).1
      · intro windowed
        obtain ⟨block, front, ended⟩ := windowed.dump rfl
        exact none block front ended
  | false =>
      constructor
      · rintro ⟨spaces, -⟩
        refine ⟨spaces, fun block front ended => absurd ended (none block front), ?_⟩
        intro enabled
        cases enabled
      · intro windowed
        exact ⟨windowed.spaces, inside_nil⟩

/-- Of a complete response, only the 28 bytes of the key can be. -/
theorem inBounds_of_ended {block : List UInt8} (front : block <+: input) (ended : Ended block)
    (scanned : scan input input {} = cursors input (block.length - 1) block) :
    InBounds logging acceptKey input ↔ Windowed logging input := by
  have four : (scan input input {}).crlf = 4 := by
    rw [scanned]
    exact ended.1
  have complete := scan_window_complete four
  have started : (scan input input {}).keyStart ≤ input.length := by
    by_contra past
    have key := complete.key
    rw [List.drop_of_length_le (by omega)] at key
    cases key
  have dump : (Access.view 0 ((scan input input {}).i + 1)).Inside input.length := by
    have inside := complete.inside
    show 0 + ((scan input input {}).i + 1) ≤ input.length
    omega
  have checked : Inside input.length (tracedCheck acceptKey input (scan input input {})).2 ↔ _ :=
    tracedCheck_inside started
  have dumped : Inside input.length
      (if logging then [Access.view 0 ((scan input input {}).i + 1)] else []) := by
    split
    · exact inside_cons.mpr ⟨dump, inside_nil⟩
    · exact inside_nil
  have key : Inside input.length (tracedCheck acceptKey input (scan input input {})).2 ↔
      (statusOf block = [49, 48, 49] → KeyInside input block) := by
    obtain ⟨trailing, rfl⟩ := front
    rw [checked, scanned, ← status_of_ended ended trailing, keyInside_iff]
    exact ⟨fun taken found => taken found.1 found.2.1 found.2.2,
      fun taken found long digits => taken ⟨found, long, digits⟩⟩
  unfold InBounds tracedHandshake
  simp only [tracedScan_fst, four, ne_eq, not_true_eq_false, if_false, inside_append]
  rw [tracedScan_window, key, and_iff_right dumped]
  constructor
  · rintro ⟨spaces, taken⟩
    refine ⟨spaces, fun block' front' ended' => ?_, fun _ => ⟨block, front, ended⟩⟩
    obtain rfl := ended'.unique ended front' front
    exact taken
  · intro windowed
    exact ⟨windowed.spaces, windowed.key block front ended⟩

end Whole

/-- **`read_handshake` stays in bounds exactly when** the response is not cut in the spaces behind
its header, a complete one with status 101 has 28 bytes from the beginning of the value on, and,
with logging, the response is complete. -/
theorem in_bounds_iff (logging : Bool) (acceptKey : Vector UInt8 28) (input : List UInt8) :
    InBounds logging acceptKey.toList input ↔ Windowed logging input := by
  rcases scan_cursors [] input rfl (by simp [crlfCount]) with ⟨opened, -⟩ | ⟨block, front, ended, scanned⟩
  · exact inBounds_of_open logging acceptKey.toList opened
  · exact inBounds_of_ended logging acceptKey.toList front ended scanned

/-- Cut behind a space of the header. -/
def cutResponse : List UInt8 := responseLine ++ crlf ++ stringBytes "Sec-WebSocket-Accept: "

/-- Complete, with a value of one byte. -/
def shortValue : List UInt8 := unlines [responseLine, stringBytes "Sec-WebSocket-Accept: A", []]

/-- Of the response that is cut, the byte behind the window is read; of the one with the short
value, 28 bytes are taken where there are 5; and the dump of an empty window has one byte. -/
theorem out_of_bounds :
    ¬ InBounds false zeroKey.toList cutResponse ∧ ¬ InBounds false zeroKey.toList shortValue ∧
      ¬ InBounds true zeroKey.toList [] := by
  refine ⟨fun inside => ?_, fun inside => ?_, fun inside => ?_⟩
  · have read : 39 < cutResponse.length := inside (.byte 39) (by decide +kernel)
    exact absurd read (by decide +kernel)
  · have taken : 39 + 28 ≤ shortValue.length := inside (.view 39 28) (by decide +kernel)
    exact absurd taken (by decide +kernel)
  · have dumped : 0 + 1 ≤ 0 := inside (.view 0 1) (by decide +kernel)
    exact absurd dumped (by decide)

end Manet.Protocol
