/-
# Manet.Protocol.ResponseLines — the response as lines

`read_handshake` scans bytes with four cursors.  On a response that consists of lines,
none of them with a CR or LF of its own and none but the last empty (`Block`), the scan
computes what a reader of lines would (`readHandshake_block`): the status behind the first
space, the value of the first line that begins with `S` and is named
`Sec-WebSocket-Accept` in any case, and the first line if there is no such header.

On any input, accepted is exactly a block up to where the CRLF count comes to 4 that passes two
comparisons, of the bytes behind a space and of the text behind a header (`Passes`,
`readHandshake_accepts_iff`).  That the header may be missing, and the space not be in the first
line, is why acceptance does not mean what it should.  `Proper` says what it should mean, and
`handshake_sound_iff` when it does: where the block is `Regular`.
-/
import Manet.Protocol.WebSocketHandshake

namespace Manet.Protocol

open Manet.Reactor

set_option autoImplicit false

/-! ## Lines -/

def crlf : List UInt8 := [13, 10]

/-- Each line, ended by CRLF. -/
def unlines (lines : List (List UInt8)) : List UInt8 := (lines.map (· ++ crlf)).flatten

@[simp] theorem unlines_nil : unlines [] = [] := rfl

@[simp] theorem unlines_cons (line : List UInt8) (lines : List (List UInt8)) :
    unlines (line :: lines) = line ++ crlf ++ unlines lines := rfl

theorem unlines_append (lines lines' : List (List UInt8)) :
    unlines (lines ++ lines') = unlines lines ++ unlines lines' := by
  simp [unlines]

/-- Neither CR nor LF. -/
def Clean (line : List UInt8) : Prop := 13 ∉ line ∧ 10 ∉ line

instance (line : List UInt8) : Decidable (Clean line) := by unfold Clean; infer_instance

/-- A header block: a first line, header lines that are not empty, and an empty line. -/
structure Block (block first : List UInt8) (headers : List (List UInt8)) : Prop where
  text : block = unlines (first :: headers) ++ crlf
  first : Clean first
  headers : ∀ line ∈ headers, Clean line ∧ line ≠ []

/-- The bytes a line goes on with. -/
def inLine (b : UInt8) : Bool := b ≠ 13 ∧ b ≠ 10

theorem Clean.inLine {line : List UInt8} (clean : Clean line) : ∀ b ∈ line, inLine b = true := by
  intro b member
  have cr : b ≠ 13 := fun same => clean.1 (same ▸ member)
  have lf : b ≠ 10 := fun same => clean.2 (same ▸ member)
  simp [Protocol.inLine, cr, lf]

theorem Clean.drop {line : List UInt8} (clean : Clean line) (n : Nat) : Clean (line.drop n) :=
  ⟨fun member => clean.1 (List.mem_of_mem_drop member),
    fun member => clean.2 (List.mem_of_mem_drop member)⟩

/-- A clean line is read up to its end. -/
theorem takeWhile_line {line : List UInt8} (clean : Clean line) (rest : List UInt8) :
    (line ++ (crlf ++ rest)).takeWhile inLine = line := by
  rw [List.takeWhile_append_of_pos clean.inLine]
  simp [crlf, inLine]

theorem Block.first_eq {block first : List UInt8} {headers : List (List UInt8)}
    (shape : Block block first headers) : first = block.takeWhile inLine := by
  rw [shape.text, unlines_cons, List.append_assoc, List.append_assoc, takeWhile_line shape.first]

/-! ## What the scan finds in a line -/

/-- The cursor of the first space: `0` while there is none. -/
def spaceIn : Nat → Nat → List UInt8 → Nat
  | found, _, [] => found
  | found, i, b :: rest => spaceIn (if found = 0 ∧ b = 32 then i else found) (i + 1) rest

theorem spaceIn_append (found i : Nat) (u v : List UInt8) :
    spaceIn found i (u ++ v) = spaceIn (spaceIn found i u) (i + u.length) v := by
  induction u generalizing found i with
  | nil => rfl
  | cons b u ih =>
      simp only [List.cons_append, spaceIn, ih, List.length_cons]
      congr 1
      omega

theorem spaceIn_crlf (found i : Nat) : spaceIn found i crlf = found := by
  simp [crlf, spaceIn]

theorem spaceIn_found {found : Nat} (already : found ≠ 0) (i : Nat) (u : List UInt8) :
    spaceIn found i u = found := by
  induction u generalizing i with
  | nil => rfl
  | cons b u ih => simp [spaceIn, already, ih]

theorem spaceIn_none {u : List UInt8} (none : 32 ∉ u) (found i : Nat) : spaceIn found i u = found := by
  induction u generalizing found i with
  | nil => rfl
  | cons b u ih =>
      obtain ⟨other, later⟩ := not_or.mp (List.mem_cons.not.mp none)
      simp [spaceIn, Ne.symm other, ih later]

/-- The line begins with `S` and with the header's name, in any case. -/
def isAccept (line : List UInt8) : Bool :=
  line.head? = some 83 ∧ (line.take acceptHeader.length).map toLower = acceptHeader.map toLower

/-- What stands behind the name and the spaces after it. -/
def acceptValue (line : List UInt8) : List UInt8 := (line.drop acceptHeader.length).dropWhile (· = 32)

theorem isAccept_length {line : List UInt8} (accept : isAccept line = true) :
    acceptHeader.length ≤ line.length := by
  have length := congrArg List.length (of_decide_eq_true accept).2
  simp only [List.length_map, List.length_take] at length
  omega

theorem cr_not_mem_header : (13 : UInt8) ∉ acceptHeader.map toLower := by decide

section Line

variable {input pre line rest : List UInt8} (shape : input = pre ++ (line ++ (crlf ++ rest)))
include shape

theorem drop_pre : input.drop pre.length = line ++ (crlf ++ rest) := by
  rw [shape, List.drop_left]

/-- The comparison with the header's name does not look behind the line. -/
theorem headerAt_line : headerAt input pre.length =
    decide ((line.take acceptHeader.length).map toLower = acceptHeader.map toLower) := by
  rw [Bool.eq_iff_iff, decide_eq_true_iff]
  unfold headerAt
  rw [decide_eq_true_iff, drop_pre shape]
  by_cases long : acceptHeader.length ≤ line.length
  · rw [List.take_append_of_le_length long]
    refine ⟨fun found => found.2, fun same => ⟨?_, same⟩⟩
    rw [shape]
    simp [crlf]
    omega
  · constructor
    · rintro ⟨-, same⟩
      -- the window reaches the CR behind the line
      have member : 13 ∈ (line ++ (crlf ++ rest)).take acceptHeader.length := by
        rw [List.take_append, List.take_of_length_le (by omega)]
        apply List.mem_append_right
        obtain ⟨n, more⟩ : ∃ n, acceptHeader.length - line.length = n + 1 :=
          Nat.exists_eq_succ_of_ne_zero (by omega)
        rw [more]
        exact List.mem_cons_self
      have image : toLower 13 ∈ acceptHeader.map toLower := by
        rw [← same]
        exact List.mem_map_of_mem member
      exact absurd image cr_not_mem_header
    · intro same
      have length := congrArg List.length same
      simp only [List.length_map, List.length_take] at length
      omega

/-- The cursor behind the spaces points at the line's value. -/
theorem value_at (clean : Clean line) (long : acceptHeader.length ≤ line.length) :
    (input.drop (skipSpaces input (pre.length + acceptHeader.length))).takeWhile inLine =
      acceptValue line := by
  have behind : input.drop (pre.length + acceptHeader.length) =
      line.drop acceptHeader.length ++ (crlf ++ rest) := by
    rw [← List.drop_drop, drop_pre shape, List.drop_append_of_le_length long]
  have spaces : ((line.drop acceptHeader.length ++ (crlf ++ rest)).takeWhile (· = 32)).length =
      ((line.drop acceptHeader.length).takeWhile (· = 32)).length := by
    rw [List.takeWhile_append]
    split
    · rename_i all
      simp only [crlf, List.cons_append, List.takeWhile_cons, all]
      simp
    · rfl
  have inside : ((line.drop acceptHeader.length).takeWhile (· = 32)).length ≤
      (line.drop acceptHeader.length).length := (List.takeWhile_prefix _).length_le
  rw [skipSpaces, behind, spaces, ← List.drop_drop, behind,
    List.drop_append_of_le_length inside, takeWhile_line ((clean.drop _).drop _), drop_takeWhile]
  rfl

end Line

/-! ## The scan, line by line -/

section Scan

variable {input rest : List UInt8}

theorem scan_body {line : List UInt8} (clean : Clean line) (s : Scan) :
    scan input (line ++ rest) s = scan input rest
      { i := s.i + line.length
        crlf := if line = [] then s.crlf else 0
        spIx := spaceIn s.spIx s.i line
        keyStart :=
          if s.keyStart = 0 ∧ s.crlf = 2 ∧ line.head? = some 83 ∧ headerAt input s.i then
            skipSpaces input (s.i + acceptHeader.length)
          else s.keyStart } := by
  induction line generalizing s with
  | nil => simp [spaceIn]
  | cons b line ih =>
      obtain ⟨cr, clean₁⟩ := not_or.mp (List.mem_cons.not.mp clean.1)
      obtain ⟨lf, clean₂⟩ := not_or.mp (List.mem_cons.not.mp clean.2)
      have counted : advanceCrlfCount s.crlf b = 0 := by
        simp [advanceCrlfCount, Ne.symm cr, Ne.symm lf]
      rw [List.cons_append, scan]
      simp only [scanByte, counted]
      rw [if_neg (by decide), ih ⟨clean₁, clean₂⟩]
      simp only [spaceIn, List.head?_cons, List.length_cons, Option.some.injEq]
      congr 1
      simp [Nat.add_right_comm, Nat.add_assoc]

/-- The end of a line that is not empty, or of the first one. -/
theorem scan_crlf {s : Scan} (inside : s.crlf = 0) :
    scan input (crlf ++ rest) s = scan input rest { s with i := s.i + 2, crlf := 2 } := by
  simp [crlf, scan, scanByte, inside, advanceCrlfCount]

/-- The empty line. -/
theorem scan_last {s : Scan} (begun : s.crlf = 2) :
    scan input (crlf ++ rest) s = { s with i := s.i + 1, crlf := 4 } := by
  simp [crlf, scan, scanByte, begun, advanceCrlfCount]

/-- The header lines and the empty line: the cursors are those of the lines. -/
theorem scan_headers {headers : List (List UInt8)} (clean : ∀ line ∈ headers, Clean line ∧ line ≠ [])
    {pre : List UInt8} {s : Scan} (shape : input = pre ++ (unlines headers ++ (crlf ++ rest)))
    (here : s.i = pre.length) (begun : s.crlf = 2) :
    ∃ key, scan input (unlines headers ++ (crlf ++ rest)) s =
        { i := pre.length + (unlines headers).length + 1
          crlf := 4
          spIx := spaceIn s.spIx pre.length (unlines headers)
          keyStart := key } ∧
      (s.keyStart ≠ 0 → key = s.keyStart) ∧
      (s.keyStart = 0 → match headers.find? isAccept with
        | some line => (input.drop key).takeWhile inLine = acceptValue line
        | none => key = 0) := by
  induction headers generalizing pre s with
  | nil =>
      refine ⟨s.keyStart, ?_, fun _ => rfl, id⟩
      rw [unlines_nil, List.nil_append, scan_last begun]
      simp [spaceIn, here]
  | cons line later ih =>
      obtain ⟨cleanLine, some'⟩ := clean line List.mem_cons_self
      have shape' : input = pre ++ (line ++ (crlf ++ (unlines later ++ (crlf ++ rest)))) := by
        simp [shape]
      have next : input = (pre ++ (line ++ crlf)) ++ (unlines later ++ (crlf ++ rest)) := by
        simp [shape]
      have recognised : (s.keyStart = 0 ∧ s.crlf = 2 ∧ line.head? = some 83 ∧
          headerAt input s.i = true) ↔ s.keyStart = 0 ∧ isAccept line = true := by
        rw [here, headerAt_line shape']
        simp [begun, isAccept]
      let behind : Scan :=
        { i := s.i + line.length + 2
          crlf := 2
          spIx := spaceIn s.spIx s.i line
          keyStart := if s.keyStart = 0 ∧ isAccept line then
            skipSpaces input (s.i + acceptHeader.length) else s.keyStart }
      have arrived : behind.i = (pre ++ (line ++ crlf)).length := by
        simp [behind, here, crlf]
        omega
      obtain ⟨key, scanned, kept, found⟩ :=
        ih (fun l member => clean l (List.mem_cons_of_mem _ member)) next arrived rfl
      dsimp only [behind] at scanned kept found
      refine ⟨key, ?_, fun already => ?_, fun fresh => ?_⟩
      · have split : unlines (line :: later) ++ (crlf ++ rest) =
            line ++ (crlf ++ (unlines later ++ (crlf ++ rest))) := by simp
        rw [split, scan_body cleanLine, if_neg some', scan_crlf rfl]
        simp only [recognised]
        rw [scanned]
        simp only [unlines_cons, List.append_assoc, spaceIn_append, spaceIn_crlf, here,
          List.length_append, Nat.add_assoc]
      · have other : ¬ (s.keyStart = 0 ∧ isAccept line = true) := fun both => already both.1
        rw [if_neg other] at kept
        exact kept already
      · by_cases accept : isAccept line = true
        · have long := isAccept_length accept
          have named : 0 < acceptHeader.length := by decide
          simp only [if_pos (And.intro fresh accept)] at kept
          rw [List.find?_cons_of_pos accept, kept (by simp only [skipSpaces]; omega), here]
          exact value_at shape' cleanLine long
        · rw [if_neg fun both => accept both.2] at found
          rw [List.find?_cons_of_neg accept]
          exact found fresh

end Scan

/-! ## Reading lines -/

/-- The value of the header, or the first line where it is missing. -/
def keyOf (first : List UInt8) (headers : List (List UInt8)) : List UInt8 :=
  match headers.find? isAccept with
  | some line => acceptValue line
  | none => first

/-- The checks of `read_handshake`, on lines. -/
def checkLines (acceptKey block first : List UInt8) (headers : List (List UInt8)) : Status :=
  let sp := spaceIn 0 0 block
  if sp = 0 ∨ (block.drop (sp + 1)).take 3 ≠ [49, 48, 49] then .error
  else if keyOf first headers ≠ acceptKey then .error
  else .ok

theorem take_three {l : List UInt8} {i : Nat} (inside : i + 3 < l.length) {a b c : UInt8} :
    (l.drop (i + 1)).take 3 = [a, b, c] ↔
      l.getD (i + 1) 0 = a ∧ l.getD (i + 2) 0 = b ∧ l.getD (i + 3) 0 = c := by
  obtain ⟨x, y, z, rest, tail⟩ : ∃ x y z rest, l.drop (i + 1) = x :: y :: z :: rest := by
    have length : 3 ≤ (l.drop (i + 1)).length := by rw [List.length_drop]; omega
    match l.drop (i + 1), length with
    | x :: y :: z :: rest, _ => exact ⟨x, y, z, rest, rfl⟩
  have get : ∀ j, l.getD (i + 1 + j) 0 = (l.drop (i + 1)).getD j 0 := by
    intro j
    simp [List.getD_eq_getElem?_getD]
  rw [show i + 2 = i + 1 + 1 from rfl, show i + 3 = i + 1 + 2 from rfl, get 1, get 2, tail,
    show l.getD (i + 1) 0 = x by rw [show i + 1 = i + 1 + 0 from rfl, get 0, tail]; rfl]
  simp

/-- The checks, with the bytes behind the space taken together. -/
theorem checkResponse_eq {acceptKey input value : List UInt8} {s : Scan} (complete : s.Complete input)
    (got : (input.drop s.keyStart).takeWhile inLine = value) :
    checkResponse acceptKey input s =
      if s.spIx = 0 ∨ (input.drop (s.spIx + 1)).take 3 ≠ [49, 48, 49] then .error
      else if value ≠ acceptKey then .error
      else .ok := by
  unfold checkResponse
  by_cases none : s.spIx = 0
  · simp [none]
  · have inside := complete.status none
    have behind : (input.getD (s.spIx + 1) 0 ≠ 49 ∨ input.getD (s.spIx + 2) 0 ≠ 48 ∨
        input.getD (s.spIx + 3) 0 ≠ 49) ↔ (input.drop (s.spIx + 1)).take 3 ≠ [49, 48, 49] := by
      simp only [ne_eq, take_three inside, not_and_or]
    simp only [none, Nat.not_le.mpr inside, or_self, if_false, behind, false_or]
    rw [← got]
    rfl

/-- **On lines, the scan is a reader of lines**, and takes exactly the block. -/
theorem readHandshake_block {block first : List UInt8} {headers : List (List UInt8)}
    (shape : Block block first headers) (acceptKey trailing : List UInt8) :
    readHandshake acceptKey (block ++ trailing) =
      (checkLines acceptKey block first headers, some block.length) := by
  have text : block = first ++ (crlf ++ (unlines headers ++ (crlf ++ []))) := by
    simp [shape.text]
  have behind : block = (first ++ crlf) ++ (unlines headers ++ (crlf ++ [])) := by
    simp [text]
  obtain ⟨key, scanned, -, found⟩ := scan_headers shape.headers behind
    (s := ⟨first.length + 2, 2, spaceIn 0 0 first, 0⟩) (by simp [crlf]) rfl
  have spaces : spaceIn 0 0 block =
      spaceIn (spaceIn 0 0 first) (first ++ crlf).length (unlines headers) := by
    rw [shape.text, unlines_cons, List.append_assoc, List.append_assoc]
    simp only [spaceIn_append, spaceIn_crlf, List.length_append, Nat.zero_add, Nat.add_assoc]
  have cursors : scan block block {} = ⟨block.length - 1, 4, spaceIn 0 0 block, key⟩ := by
    have body : scan block (first ++ (crlf ++ (unlines headers ++ (crlf ++ [])))) {} = _ :=
      scan_body shape.first {}
    rw [← text] at body
    rw [body]
    simp only [Nat.zero_add, ite_self, OfNat.zero_ne_ofNat, false_and, and_false, if_false]
    rw [scan_crlf rfl, scanned, spaces]
    simp only [shape.text, unlines_cons, List.length_append]
    congr 1
  have complete : (scan block block {}).Complete block :=
    scan_window_complete (by rw [cursors])
  have nonempty : 0 < block.length := by
    rw [shape.text, List.length_append]
    exact Nat.add_pos_right _ (by decide)
  have got : (block.drop key).takeWhile inLine = keyOf first headers := by
    have value := found rfl
    unfold keyOf
    cases accept : headers.find? isAccept with
    | some line =>
        rw [accept] at value
        exact value
    | none =>
        rw [accept] at value
        subst value
        exact shape.first_eq.symm
  have alone : readHandshake acceptKey block =
      (checkLines acceptKey block first headers, some block.length) := by
    rw [cursors] at complete
    simp only [readHandshake, cursors, ne_eq, not_true_eq_false, if_false]
    rw [Nat.sub_add_cancel nonempty, checkResponse_eq complete got]
    rfl
  rw [readHandshake_append trailing (by rw [alone]; simp), alone]

/-! ## The cursors, on any input -/

/-- The count of `advance_crlf_count` behind `bytes`. -/
def crlfCount (bytes : List UInt8) : Nat := bytes.foldl advanceCrlfCount 0

theorem crlfCount_concat (bytes : List UInt8) (chr : UInt8) :
    crlfCount (bytes ++ [chr]) = advanceCrlfCount (crlfCount bytes) chr := by
  simp [crlfCount]

/-- The bytes up to where the count first comes to 4. -/
def Ended (block : List UInt8) : Prop :=
  crlfCount block = 4 ∧ ∀ k < block.length, crlfCount (block.take k) ≠ 4

instance (block : List UInt8) : Decidable (Ended block) := by unfold Ended; infer_instance

theorem Ended.eq_of_prefix {block block' : List UInt8} (ended : Ended block) (ended' : Ended block')
    (front : block' <+: block) : block' = block := by
  obtain ⟨rest, rfl⟩ := front
  cases rest with
  | nil => simp
  | cons b rest =>
      have early := ended.2 block'.length (by simp)
      rw [List.take_left] at early
      exact absurd ended'.1 early

/-- An input begins with one such block at most. -/
theorem Ended.unique {block block' input : List UInt8} (ended : Ended block) (ended' : Ended block')
    (front : block <+: input) (front' : block' <+: input) : block = block' := by
  rcases List.prefix_or_prefix_of_prefix front front' with shorter | longer
  · exact ended'.eq_of_prefix ended shorter
  · exact (ended.eq_of_prefix ended' longer).symm

/-- The header's name stands at `j`, behind a CRLF, and begins with `S`. -/
def namedAt (input : List UInt8) (j : Nat) : Bool :=
  crlfCount (input.take j) = 2 ∧ input[j]? = some 83 ∧ headerAt input j

/-- Where the value of the first such header in front of `k` begins: `0` while there is none. -/
def valueStart (input : List UInt8) (k : Nat) : Nat :=
  match (List.range k).find? (namedAt input) with
  | some j => skipSpaces input (j + acceptHeader.length)
  | none => 0

theorem skipSpaces_header_pos (input : List UInt8) (j : Nat) :
    skipSpaces input (j + acceptHeader.length) ≠ 0 := by
  have named : 0 < acceptHeader.length := by decide
  unfold skipSpaces
  omega

theorem valueStart_succ (input : List UInt8) (k : Nat) :
    valueStart input (k + 1) =
      if valueStart input k = 0 ∧ namedAt input k then skipSpaces input (k + acceptHeader.length)
      else valueStart input k := by
  unfold valueStart
  rw [List.range_succ, List.find?_append]
  cases found : (List.range k).find? (namedAt input) with
  | some j => simp [skipSpaces_header_pos]
  | none => cases here : namedAt input k <;> simp [here]

/-- What the cursors have found in `pre`. -/
def cursors (input : List UInt8) (i : Nat) (pre : List UInt8) : Scan :=
  ⟨i, crlfCount pre, spaceIn 0 0 pre, valueStart input pre.length⟩

theorem scanByte_cursors {input pre rest : List UInt8} {chr : UInt8}
    (shape : input = pre ++ chr :: rest) :
    scanByte input (cursors input pre.length pre) chr = cursors input pre.length (pre ++ [chr]) := by
  have before : input.take pre.length = pre := by rw [shape, List.take_left]
  have here : input[pre.length]? = some chr := by simp [shape]
  have recognised : (valueStart input pre.length = 0 ∧ namedAt input pre.length = true) ↔
      valueStart input pre.length = 0 ∧ crlfCount pre = 2 ∧ chr = 83 ∧
        headerAt input pre.length = true := by
    simp [namedAt, before, here]
  simp only [cursors, scanByte, crlfCount_concat, spaceIn_append, spaceIn, List.length_append,
    List.length_singleton, valueStart_succ, recognised, Nat.zero_add]
  congr

/-- The scan from `pre` on: the count never comes to 4, or the scan stops where it first does. -/
theorem scan_cursors {input : List UInt8} : ∀ (pre rest : List UInt8), input = pre ++ rest →
    (∀ k ≤ pre.length, crlfCount (pre.take k) ≠ 4) →
    (scan input rest (cursors input pre.length pre)).crlf ≠ 4 ∧ crlfCount input ≠ 4 ∨
      ∃ block, block <+: input ∧ Ended block ∧
        scan input rest (cursors input pre.length pre) = cursors input (block.length - 1) block
  | pre, [], shape, going => by
      have whole : crlfCount pre ≠ 4 := by simpa using going pre.length (Nat.le_refl _)
      rw [List.append_nil] at shape
      subst shape
      exact .inl ⟨whole, whole⟩
  | pre, chr :: rest, shape, going => by
      have inside : ∀ k ≤ pre.length, crlfCount ((pre ++ [chr]).take k) ≠ 4 := by
        intro k early
        rw [List.take_append_of_le_length early]
        exact going k early
      rw [scan, scanByte_cursors shape]
      by_cases last : crlfCount (pre ++ [chr]) = 4
      · right
        refine ⟨pre ++ [chr], ⟨rest, by simp [shape]⟩, ⟨last, fun k short => ?_⟩, ?_⟩
        · rw [List.length_append, List.length_singleton] at short
          exact inside k (by omega)
        · simp [cursors, last]
      · have longer : ∀ k ≤ (pre ++ [chr]).length, crlfCount ((pre ++ [chr]).take k) ≠ 4 := by
          intro k _
          rcases Nat.lt_or_ge pre.length k with past | early
          · rw [List.take_of_length_le (by simp; omega)]
            exact last
          · exact inside k early
        have next : input = (pre ++ [chr]) ++ rest := by simp [shape]
        have again := scan_cursors (pre ++ [chr]) rest next longer
        rw [List.length_append, List.length_singleton] at again
        simp only [cursors, last, if_false] at again ⊢
        exact again

/-- On a block the scan comes to its end. -/
theorem Ended.scan {block : List UInt8} (ended : Ended block) :
    Protocol.scan block block {} = cursors block (block.length - 1) block := by
  have begun : ∀ k ≤ ([] : List UInt8).length, crlfCount (([] : List UInt8).take k) ≠ 4 := by
    simp [crlfCount]
  rcases scan_cursors [] block rfl begun with ⟨-, never⟩ | ⟨block', front, ended', scanned⟩
  · exact absurd ended.1 never
  · obtain rfl := ended.eq_of_prefix ended' front
    exact scanned

/-- The three bytes behind the first space that is not the first byte. -/
def statusOf (block : List UInt8) : List UInt8 :=
  ((block.drop 1).dropWhile (· ≠ 32)).tail.take 3

/-- The text behind the first header that the scan recognises, or at the very beginning where
there is none. -/
def keyText (block : List UInt8) : List UInt8 :=
  (block.drop (valueStart block block.length)).takeWhile inLine

theorem statusOf_eq_iff (block : List UInt8) :
    statusOf block = [49, 48, 49] ↔
      ¬ (spaceIn 0 0 block = 0 ∨ (block.drop (spaceIn 0 0 block + 1)).take 3 ≠ [49, 48, 49]) := by
  cases block with
  | nil => simp [statusOf, spaceIn]
  | cons b rest =>
      have ahead : spaceIn 0 0 (b :: rest) = spaceIn 0 1 rest := by simp [spaceIn]
      rw [ahead]
      by_cases space : 32 ∈ rest
      · obtain ⟨u, v, rfl, none⟩ := List.eq_append_cons_of_mem space
        have before : ∀ b ∈ u, decide (b ≠ 32) = true := by
          intro b member
          rw [decide_eq_true_eq]
          rintro rfl
          exact none member
        have position : spaceIn 0 1 (u ++ 32 :: v) = 1 + u.length := by
          rw [spaceIn_append, spaceIn_none none]
          simp only [spaceIn, and_self, if_true]
          exact spaceIn_found (by omega) _ _
        have behind : (b :: (u ++ 32 :: v)).drop (1 + u.length + 1) = v := by
          rw [show b :: (u ++ 32 :: v) = (b :: (u ++ [32])) ++ v by simp]
          exact List.drop_left' (by simp; omega)
        rw [position, behind]
        simp only [statusOf, List.drop_succ_cons, List.drop_zero,
          List.dropWhile_append_of_pos before]
        simp
      · rw [spaceIn_none space]
        have none : rest.dropWhile (fun b => decide (b ≠ 32)) = [] := by
          rw [List.dropWhile_eq_nil_iff]
          intro b member
          rw [decide_eq_true_eq]
          rintro rfl
          exact space member
        simp only [statusOf, List.drop_succ_cons, List.drop_zero, none]
        simp

/-- The block at the front passes the two comparisons. -/
structure Passes (acceptKey block : List UInt8) : Prop where
  ended : Ended block
  status : statusOf block = [49, 48, 49]
  key : keyText block = acceptKey

/-- The answer to a block, whatever follows it. -/
theorem readHandshake_ended {block : List UInt8} (ended : Ended block)
    (acceptKey trailing : List UInt8) :
    readHandshake acceptKey (block ++ trailing) =
      (if statusOf block ≠ [49, 48, 49] then .error
        else if keyText block ≠ acceptKey then .error else .ok, some block.length) := by
  have nonempty : 0 < block.length := by
    refine List.length_pos_of_ne_nil ?_
    rintro rfl
    cases ended.1
  have scanned := ended.scan
  have done : (scan block block {}).crlf = 4 := by
    rw [scanned]
    exact ended.1
  have complete := scan_window_complete done
  have alone : readHandshake acceptKey block =
      (if statusOf block ≠ [49, 48, 49] then .error
        else if keyText block ≠ acceptKey then .error else .ok, some block.length) := by
    have taken : (scan block block {}).i + 1 = block.length := by
      rw [scanned]
      exact Nat.sub_add_cancel nonempty
    unfold readHandshake
    simp only [done, ne_eq, not_true_eq_false, if_false, taken]
    rw [checkResponse_eq complete rfl, scanned]
    simp only [ne_eq, statusOf_eq_iff, not_not]
    rfl
  rw [readHandshake_append trailing (by rw [alone]; simp), alone]

/-- **What `read_handshake` accepts**, on any input. -/
theorem readHandshake_accepts_iff {acceptKey input : List UInt8} {n : Nat} :
    readHandshake acceptKey input = (.ok, some n) ↔
      ∃ block, block <+: input ∧ Passes acceptKey block ∧ block.length = n := by
  constructor
  · intro accepted
    rcases scan_cursors [] input rfl (by simp [crlfCount]) with ⟨never, -⟩ | ⟨block, front, ended, -⟩
    · have open' : (scan input input {}).crlf ≠ 4 := never
      simp [readHandshake, open'] at accepted
    · obtain ⟨trailing, rfl⟩ := front
      rw [readHandshake_ended ended] at accepted
      obtain ⟨checked, length⟩ := Prod.mk.inj accepted
      refine ⟨block, ⟨trailing, rfl⟩, ?_, Option.some.inj length⟩
      split at checked
      · cases checked
      rename_i status
      split at checked
      · cases checked
      rename_i key
      exact ⟨ended, not_not.mp status, not_not.mp key⟩
  · rintro ⟨block, ⟨trailing, rfl⟩, passes, rfl⟩
    rw [readHandshake_ended passes.ended, if_neg (not_not.mpr passes.status),
      if_neg (not_not.mpr passes.key)]

/-! ## What acceptance means -/

def isDigit (b : UInt8) : Bool := 48 ≤ b ∧ b ≤ 57

/-- The first line has, behind its first space, the status code 101. -/
def Switching (first : List UInt8) : Prop :=
  ∃ version rest, first = version ++ 32 :: 49 :: 48 :: 49 :: rest ∧ 32 ∉ version ∧
    isDigit (rest.getD 0 0) = false

/-- The line is the header, in any case, with the value `acceptKey` behind spaces. -/
def Accepts (acceptKey line : List UInt8) : Prop :=
  ∃ name spaces, line = name ++ spaces ++ acceptKey ∧ name.map toLower = acceptHeader.map toLower ∧
    ∀ b ∈ spaces, b = 32

/-- What an accepted response should be. -/
def Proper (acceptKey block : List UInt8) : Prop :=
  ∃ first headers, Block block first headers ∧ Switching first ∧
    ∃ line ∈ headers, Accepts acceptKey line

/-- A header block whose first line has a space, with no fourth digit behind it, and with a
header that the scan recognises.  A space in front of everything is one that the scan does not
see; what follows it has to be the status. -/
def Regular (block : List UInt8) : Prop :=
  ∃ first headers, Block block first headers ∧
    (∃ version after, first = version ++ 32 :: after ∧ 32 ∉ version ∧
      isDigit (after.getD 3 0) = false ∧ (version = [] → [49, 48, 49] <+: after)) ∧
    ∃ line ∈ headers, isAccept line = true

/-- If `read_handshake` accepts and consumes, then what it consumed is a proper response. -/
def AcceptsSoundly (acceptKey input : List UInt8) : Prop :=
  ∀ n, readHandshake acceptKey input = (.ok, some n) → Proper acceptKey (input.take n)

theorem accepts_of_isAccept {line : List UInt8} (accept : isAccept line = true) :
    Accepts (acceptValue line) line := by
  refine ⟨line.take acceptHeader.length, (line.drop acceptHeader.length).takeWhile (· = 32), ?_,
    (of_decide_eq_true accept).2, fun b member => ?_⟩
  · rw [acceptValue, List.append_assoc, List.takeWhile_append_dropWhile, List.take_append_drop]
  · simpa using List.mem_takeWhile_imp member

theorem checkLines_ok {acceptKey block first : List UInt8} {headers : List (List UInt8)}
    (ok : checkLines acceptKey block first headers = .ok) :
    spaceIn 0 0 block ≠ 0 ∧ (block.drop (spaceIn 0 0 block + 1)).take 3 = [49, 48, 49] ∧
      keyOf first headers = acceptKey := by
  unfold checkLines at ok
  simp only at ok
  split at ok
  · cases ok
  rename_i status
  split at ok
  · cases ok
  · rename_i key
    obtain ⟨space, digits⟩ := not_or.mp status
    exact ⟨space, not_not.mp digits, not_not.mp key⟩

/-- The first space, unless it stands in front of everything. -/
theorem spaceIn_first {version : List UInt8} (some' : version ≠ []) (none : 32 ∉ version)
    (rest : List UInt8) : spaceIn 0 0 (version ++ 32 :: rest) = version.length := by
  have position : 0 + version.length ≠ 0 := by simpa using some'
  rw [spaceIn_append, spaceIn_none none]
  simp only [spaceIn, and_self, if_true]
  rw [spaceIn_found position, Nat.zero_add]

/-- An accepted response that consists of lines has passed the checks on lines. -/
theorem accepted_lines {acceptKey input first : List UInt8} {n : Nat} {headers : List (List UInt8)}
    (accepted : readHandshake acceptKey input = (.ok, some n))
    (shape : Block (input.take n) first headers) :
    checkLines acceptKey (input.take n) first headers = .ok := by
  have read := readHandshake_block shape acceptKey (input.drop n)
  rw [List.take_append_drop, accepted] at read
  exact (Prod.mk.inj read).1.symm

/-- The status behind a space in the line is in the line: neither CR nor LF is a digit. -/
theorem status_in_line {after rest : List UInt8}
    (status : (after ++ (crlf ++ rest)).take 3 = [49, 48, 49]) : [49, 48, 49] <+: after := by
  match after with
  | [] | [_] | [_, _] => simp [crlf] at status
  | a :: b :: c :: more =>
      simp only [List.cons_append, List.take_succ_cons, List.take_zero, List.cons.injEq,
        and_true] at status
      obtain ⟨rfl, rfl, rfl⟩ := status
      exact List.prefix_append [49, 48, 49] more

theorem regular_of_proper {acceptKey input : List UInt8} {n : Nat} (spaceless : 32 ∉ acceptKey)
    (accepted : readHandshake acceptKey input = (.ok, some n))
    (proper : Proper acceptKey (input.take n)) : Regular (input.take n) := by
  obtain ⟨first, headers, shape, ⟨version, rest, line, none, digit⟩, -⟩ := proper
  obtain ⟨-, -, key⟩ := checkLines_ok (accepted_lines accepted shape)
  refine ⟨first, headers, shape, ⟨version, 49 :: 48 :: 49 :: rest, line, none, digit, fun _ => ?_⟩, ?_⟩
  · exact List.prefix_append [49, 48, 49] rest
  · unfold keyOf at key
    cases found : headers.find? isAccept with
    | some header => exact ⟨header, List.mem_of_find?_eq_some found, List.find?_some found⟩
    | none =>
        -- the first line was taken for the key, but it has a space
        rw [found] at key
        have same : first = acceptKey := key
        rw [← same, line] at spaceless
        simp at spaceless

theorem proper_of_regular {acceptKey input : List UInt8} {n : Nat}
    (accepted : readHandshake acceptKey input = (.ok, some n))
    (regular : Regular (input.take n)) : Proper acceptKey (input.take n) := by
  obtain ⟨first, headers, shape, ⟨version, after, line, none, digit, lead⟩, header, member, accept⟩ :=
    regular
  obtain ⟨-, digits, key⟩ := checkLines_ok (accepted_lines accepted shape)
  have status : [49, 48, 49] <+: after := by
    by_cases empty : version = []
    · exact lead empty
    · have text : input.take n = version ++ 32 :: (after ++ (crlf ++ (unlines headers ++ crlf))) := by
        rw [shape.text, unlines_cons, line]
        simp
      rw [text, spaceIn_first empty none, ← List.drop_drop, List.drop_left] at digits
      exact status_in_line digits
  obtain ⟨rest, rfl⟩ := status
  refine ⟨first, headers, shape, ⟨version, rest, line, none, digit⟩, ?_⟩
  unfold keyOf at key
  cases found : headers.find? isAccept with
  | some header' =>
      rw [found] at key
      refine ⟨header', List.mem_of_find?_eq_some found, ?_⟩
      have same : acceptValue header' = acceptKey := key
      rw [← same]
      exact accepts_of_isAccept (List.find?_some found)
  | none => exact absurd accept (List.find?_eq_none.mp found header member)

/-- **Acceptance means a proper response exactly when** every block at the front of the input that
passes the comparisons is regular. -/
theorem handshake_sound_iff (acceptKey : Vector UInt8 28)
    (alphabet : ∀ b ∈ acceptKey, b ∈ base64Table ∨ b = 61) (input : List UInt8) :
    AcceptsSoundly acceptKey.toList input ↔
      ∀ block, block <+: input → Passes acceptKey.toList block → Regular block := by
  have spaceless : 32 ∉ acceptKey.toList := by
    intro member
    rcases alphabet 32 (Vector.mem_toList_iff.mp member) with inside | pad
    · exact absurd inside (by decide)
    · cases pad
  constructor
  · intro sound block front passes
    have accepted := readHandshake_accepts_iff.mpr ⟨block, front, passes, rfl⟩
    have regular := regular_of_proper spaceless accepted (sound _ accepted)
    rwa [← List.prefix_iff_eq_take.mp front] at regular
  · intro regular n accepted
    obtain ⟨block, front, passes, rfl⟩ := readHandshake_accepts_iff.mp accepted
    refine proper_of_regular accepted ?_
    rw [← List.prefix_iff_eq_take.mp front]
    exact regular block front passes

/-- The accept key of a digest of zeros. -/
def zeroKey : Vector UInt8 28 := ⟨(stringBytes "AAAAAAAAAAAAAAAAAAAAAAAAAAA=").toArray, by decide⟩

def responseLine : List UInt8 := stringBytes "HTTP/1.1 101 OK"

def acceptLine : List UInt8 := stringBytes "Sec-WebSocket-Accept: AAAAAAAAAAAAAAAAAAAAAAAAAAA="

/-- A response as it should be is accepted, and soundly so. -/
theorem handshake_sound_iff_response :
    readHandshake zeroKey.toList (unlines [responseLine, acceptLine, []]) = (.ok, some 71) ∧
      AcceptsSoundly zeroKey.toList (unlines [responseLine, acceptLine, []]) := by
  have read : readHandshake zeroKey.toList (unlines [responseLine, acceptLine, []]) =
      (.ok, some 71) := by decide +kernel
  refine ⟨read, (handshake_sound_iff zeroKey (by decide +kernel) _).mpr fun block front passes => ?_⟩
  have whole : Ended (unlines [responseLine, acceptLine, []]) := by decide +kernel
  obtain rfl := passes.ended.unique whole front List.prefix_rfl
  refine ⟨responseLine, [acceptLine], ⟨by decide +kernel, by decide, by decide⟩, ?_, acceptLine, ?_⟩
  · exact ⟨stringBytes "HTTP/1.1", stringBytes "101 OK", by decide, by decide, by decide, by decide⟩
  · exact ⟨List.mem_singleton_self _, by decide⟩

theorem Switching.space {first : List UInt8} (switching : Switching first) : 32 ∈ first := by
  obtain ⟨version, rest, rfl, -⟩ := switching
  simp

/-- Behind the first space there are not four digits. -/
theorem Switching.digits {first : List UInt8} (switching : Switching first) :
    isDigit ((first.dropWhile (· ≠ 32)).getD 4 0) = false := by
  obtain ⟨version, rest, rfl, none, digit⟩ := switching
  have before : ∀ b ∈ version, decide (b ≠ 32) = true := by
    intro b member
    rw [decide_eq_true_eq]
    rintro rfl
    exact none member
  rw [List.dropWhile_append_of_pos before]
  simpa using digit

/-- Accepted: a response without the header, whose first line is the key itself; one whose status
line has no status, which stands in another line; and one with the status 1012. -/
theorem unsound_acceptance :
    ¬ AcceptsSoundly zeroKey.toList (unlines [zeroKey.toList, stringBytes "X: 101", []]) ∧
    ¬ AcceptsSoundly zeroKey.toList
      (unlines [stringBytes "HTTP/1.1", stringBytes "X: 101", acceptLine, []]) ∧
    ¬ AcceptsSoundly zeroKey.toList (unlines [stringBytes "HTTP/1.1 1012 OK", acceptLine, []]) := by
  refine ⟨fun sound => ?_, fun sound => ?_, fun sound => ?_⟩
  · obtain ⟨first, headers, shape, switching, -⟩ := sound 40 (by decide +kernel)
    rw [shape.first_eq] at switching
    exact absurd switching.space (by decide +kernel)
  · obtain ⟨first, headers, shape, switching, -⟩ := sound 72 (by decide +kernel)
    rw [shape.first_eq] at switching
    exact absurd switching.space (by decide +kernel)
  · obtain ⟨first, headers, shape, switching, -⟩ := sound 72 (by decide +kernel)
    rw [shape.first_eq] at switching
    exact absurd switching.digits (by decide +kernel)

end Manet.Protocol
