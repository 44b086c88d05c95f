/-
# Manet.Protocol.ResponseFraming — where a response ends

`read_handshake` looks for the end of the response with a counter, not with a search for
CR LF CR LF.  The counter keeps a partial count through repeated bytes: a count of 1 says that
the last byte is a CR, a count of 2 that it is followed by any number of LFs, a count of 3 that
these are followed by any number of CRs (`Tail`, `crlfCount_tail`).  So what brings the count
to 4 is the end `CR LF⁺ CR⁺ LF` (`loose`), and the counter is a search for the empty line
exactly where no such end comes before the first CR LF CR LF (`framed_iff`).
-/
import Mathlib.Data.List.Induction
import Manet.Protocol.ResponseLines

namespace Manet.Protocol

set_option autoImplicit false

/-! ## What a count says about the last bytes -/

/-- `CR LF⁺ CR⁺ LF`, with `a` LFs and `b` CRs more than there have to be. -/
def loose (a b : Nat) : List UInt8 :=
  13 :: (List.replicate (a + 1) 10 ++ (List.replicate (b + 1) 13 ++ [10]))

/-- `CR LF CR LF` -/
def emptyLine : List UInt8 := crlf ++ crlf

/-- The last bytes at each count. -/
def Tail (bytes : List UInt8) : Nat → Prop
  | 1 => [13] <:+ bytes
  | 2 => ∃ a, 13 :: List.replicate (a + 1) 10 <:+ bytes
  | 3 => ∃ a b, 13 :: (List.replicate (a + 1) 10 ++ List.replicate (b + 1) 13) <:+ bytes
  | _ => True

theorem suffix_concat {u bytes : List UInt8} (behind : u <:+ bytes) (chr : UInt8) :
    u ++ [chr] <:+ bytes ++ [chr] := by
  obtain ⟨pre, rfl⟩ := behind
  exact ⟨pre, by simp⟩

theorem tail_cr {bytes : List UInt8} {count : Nat} (before : Tail bytes count) :
    Tail (bytes ++ [13]) (advanceCrlfCount count 13) := by
  have here : [13] <:+ bytes ++ [13] := List.suffix_append bytes [13]
  match count, before with
  | 0, _ => exact here
  | 1, _ => exact here
  | 2, ⟨a, behind⟩ =>
      refine ⟨a, 0, ?_⟩
      have longer := suffix_concat behind 13
      simpa using longer
  | 3, ⟨a, b, behind⟩ =>
      refine ⟨a, b + 1, ?_⟩
      have longer := suffix_concat behind 13
      rw [List.replicate_succ' (n := b + 1)]
      simpa using longer
  | n + 4, _ =>
      have past : ∃ m, advanceCrlfCount (n + 4) 13 = m + 4 := by
        unfold advanceCrlfCount
        exact ⟨n + if (n + 4) % 2 = 0 then 1 else 0, by simp; omega⟩
      obtain ⟨m, count⟩ := past
      rw [count]
      trivial

theorem tail_lf {bytes : List UInt8} {count : Nat} (before : Tail bytes count) :
    Tail (bytes ++ [10]) (advanceCrlfCount count 10) := by
  match count, before with
  | 0, _ => trivial
  | 1, behind =>
      refine ⟨0, ?_⟩
      have longer := suffix_concat behind 10
      simpa using longer
  | 2, ⟨a, behind⟩ =>
      refine ⟨a + 1, ?_⟩
      have longer := suffix_concat behind 10
      rw [List.replicate_succ' (n := a + 1)]
      simpa using longer
  | 3, _ => trivial
  | n + 4, _ =>
      have past : ∃ m, advanceCrlfCount (n + 4) 10 = m + 4 := by
        unfold advanceCrlfCount
        exact ⟨n + (n + 4) % 2, by simp; omega⟩
      obtain ⟨m, count⟩ := past
      rw [count]
      trivial

/-- **The count says what the last bytes are.** -/
theorem crlfCount_tail (bytes : List UInt8) : Tail bytes (crlfCount bytes) := by
  induction bytes using List.reverseRecOn with
  | nil => trivial
  | append_singleton bytes chr ih =>
      rw [crlfCount_concat]
      by_cases cr : chr = 13
      · subst cr
        exact tail_cr ih
      by_cases lf : chr = 10
      · subst lf
        exact tail_lf ih
      · have reset : advanceCrlfCount (crlfCount bytes) chr = 0 := by
          simp [advanceCrlfCount, cr, lf]
        rw [reset]
        trivial

/-! ## The two ways round -/

/-- What brings the count to 4 for the first time is a loose end. -/
theorem Ended.loose {block : List UInt8} (ended : Ended block) : ∃ a b, loose a b <:+ block := by
  obtain ⟨four, first⟩ := ended
  rcases List.eq_nil_or_concat block with rfl | ⟨before, chr, rfl⟩
  · cases four
  · rw [List.concat_eq_append] at four first ⊢
    have earlier : crlfCount before ≠ 4 := by
      have here := first before.length (by simp)
      rwa [List.take_left] at here
    rw [crlfCount_concat] at four
    obtain ⟨rfl, three⟩ := lf_of_advanceCrlfCount earlier four
    have tail := crlfCount_tail before
    rw [three] at tail
    obtain ⟨a, b, behind⟩ := tail
    refine ⟨a, b, ?_⟩
    have longer := suffix_concat behind 10
    simpa [Protocol.loose] using longer

theorem foldl_lf (a : Nat) : (List.replicate (a + 1) 10).foldl advanceCrlfCount 1 = 2 := by
  have stays : ∀ n, (List.replicate n 10).foldl advanceCrlfCount 2 = 2 := by
    intro n
    induction n with
    | zero => rfl
    | succ n ih =>
        rw [List.replicate_succ, List.foldl_cons]
        exact ih
  rw [List.replicate_succ, List.foldl_cons]
  exact stays a

theorem foldl_cr (b : Nat) : (List.replicate (b + 1) 13).foldl advanceCrlfCount 2 = 3 := by
  have stays : ∀ n, (List.replicate n 13).foldl advanceCrlfCount 3 = 3 := by
    intro n
    induction n with
    | zero => rfl
    | succ n ih =>
        rw [List.replicate_succ, List.foldl_cons]
        exact ih
  rw [List.replicate_succ, List.foldl_cons]
  exact stays b

/-- A count that never was 4 has not passed it. -/
theorem crlfCount_lt {bytes : List UInt8}
    (never : ∀ k ≤ bytes.length, crlfCount (bytes.take k) ≠ 4) : crlfCount bytes < 4 := by
  induction bytes using List.reverseRecOn with
  | nil => decide
  | append_singleton bytes chr ih =>
      have earlier : crlfCount bytes < 4 := by
        apply ih
        intro k early
        have here := never k (by simp; omega)
        rwa [List.take_append_of_le_length early] at here
      have whole := never (bytes ++ [chr]).length (Nat.le_refl _)
      rw [List.take_length] at whole
      have step := advanceCrlfCount_le (crlfCount bytes) chr
      rw [crlfCount_concat] at whole ⊢
      omega

/-- At a loose end the count has been 4. -/
theorem counted_of_loose {front : List UInt8} {a b : Nat} (behind : loose a b <:+ front) :
    ∃ k ≤ front.length, crlfCount (front.take k) = 4 := by
  obtain ⟨pre, rfl⟩ := behind
  by_contra none
  have never : ∀ k ≤ (pre ++ loose a b).length, crlfCount ((pre ++ loose a b).take k) ≠ 4 := by
    intro k inside four
    exact none ⟨k, inside, four⟩
  have before : crlfCount pre < 4 := by
    apply crlfCount_lt
    intro k inside
    have here := never k (by simp; omega)
    rwa [List.take_append_of_le_length inside] at here
  have whole : crlfCount (pre ++ loose a b) ≠ 4 := by
    have here := never _ (Nat.le_refl _)
    rwa [List.take_length] at here
  have two : crlfCount (pre ++ [13, 10]) ≠ 4 := by
    have here := never (pre.length + 2) (by simp [loose]; omega)
    rwa [List.take_length_add_append] at here
  have split : crlfCount (pre ++ loose a b) =
      (loose a b).foldl advanceCrlfCount (crlfCount pre) := List.foldl_append
  have split₂ : crlfCount (pre ++ [13, 10]) =
      [13, 10].foldl advanceCrlfCount (crlfCount pre) := List.foldl_append
  rw [split] at whole
  rw [split₂] at two
  generalize crlfCount pre = count at before whole two
  -- the first CR leaves a count of 1, or the LF behind it makes 4
  have cases : count = 0 ∨ count = 1 ∨ count = 2 ∨ count = 3 := by omega
  have fresh : advanceCrlfCount count 13 = 1 := by
    rcases cases with rfl | rfl | rfl | rfl
    · rfl
    · rfl
    · exact absurd rfl two
    · exact absurd rfl two
  apply whole
  rw [loose, List.foldl_cons, fresh, List.foldl_append, List.foldl_append, foldl_lf, foldl_cr]
  rfl

/-- Where the count has been 4 there is a first time. -/
theorem ended_of_counted {front : List UInt8} {k : Nat} (four : crlfCount (front.take k) = 4) :
    ∃ n, Ended (front.take n) := by
  have some' : ∃ n, crlfCount (front.take n) = 4 := ⟨k, four⟩
  refine ⟨Nat.find some', Nat.find_spec some', ?_⟩
  intro m early
  rw [List.length_take] at early
  rw [List.take_take, Nat.min_eq_left (by omega)]
  exact Nat.find_min some' (by omega)

theorem ended_of_loose {front : List UInt8} {a b : Nat} (behind : loose a b <:+ front) :
    ∃ block, block <+: front ∧ Ended block := by
  obtain ⟨k, -, four⟩ := counted_of_loose behind
  obtain ⟨n, ended⟩ := ended_of_counted four
  exact ⟨front.take n, List.take_prefix n front, ended⟩

/-- What is consumed is the bytes up to where the count first comes to 4, on any input. -/
theorem readHandshake_consumes_iff {acceptKey input : List UInt8} {n : Nat} :
    (readHandshake acceptKey input).2 = some n ↔ n ≤ input.length ∧ Ended (input.take n) := by
  constructor
  · intro consumed
    rcases scan_cursors [] input rfl (by simp [crlfCount]) with ⟨never, -⟩ | ⟨block, front, ended, -⟩
    · have open' : (scan input input {}).crlf ≠ 4 := never
      simp [readHandshake, open'] at consumed
    · obtain ⟨trailing, rfl⟩ := front
      rw [readHandshake_ended ended] at consumed
      obtain rfl : block.length = n := Option.some.inj consumed
      rw [List.take_left]
      exact ⟨by simp, ended⟩
  · rintro ⟨inside, ended⟩
    have read := readHandshake_ended ended acceptKey (input.drop n)
    rw [List.take_append_drop, List.length_take, Nat.min_eq_left inside] at read
    rw [read]

/-! ## Searching for the empty line -/

/-- The first `CR LF CR LF` ends with the first `n` bytes. -/
structure EmptyLineAt (input : List UInt8) (n : Nat) : Prop where
  inside : n ≤ input.length
  here : emptyLine <:+ input.take n
  first : ∀ m < n, ¬ emptyLine <:+ input.take m

/-- The counter is a search for the empty line, and so is what `read_handshake` consumes. -/
structure Framed (input : List UInt8) : Prop where
  counted : ∀ n ≤ input.length, Ended (input.take n) ↔ EmptyLineAt input n
  consumed : ∀ acceptKey n, (readHandshake acceptKey input).2 = some n ↔ EmptyLineAt input n

/-- A loose end comes only behind an empty line, or is one. -/
def Strict (input : List UInt8) : Prop :=
  ∀ front, front <+: input → ∀ a b, loose a b <:+ front → emptyLine <:+: front

theorem emptyLine_loose : loose 0 0 = emptyLine := rfl

theorem take_of_prefix_take {block input : List UInt8} {n : Nat} (front : block <+: input.take n) :
    block = input.take block.length ∧ block.length ≤ n := by
  have whole : block <+: input := front.trans (List.take_prefix n input)
  have short := front.length_le
  rw [List.length_take] at short
  exact ⟨List.prefix_iff_eq_take.mp whole, by omega⟩

/-- Where the empty line ends the count has been 4. -/
theorem ended_of_emptyLine {input : List UInt8} {n : Nat} (here : emptyLine <:+ input.take n) :
    ∃ m ≤ n, m ≤ input.length ∧ Ended (input.take m) := by
  rw [← emptyLine_loose] at here
  obtain ⟨block, front, ended⟩ := ended_of_loose here
  obtain ⟨same, short⟩ := take_of_prefix_take front
  have inside := (front.trans (List.take_prefix n input)).length_le
  rw [same] at ended
  exact ⟨block.length, short, inside, ended⟩

theorem Ended.eq {input : List UInt8} {m n : Nat} (ended : Ended (input.take m))
    (ended' : Ended (input.take n)) (inside : m ≤ input.length) (inside' : n ≤ input.length) :
    m = n := by
  have same := ended.unique ended' (List.take_prefix m input) (List.take_prefix n input)
  have length := congrArg List.length same
  rw [List.length_take, List.length_take] at length
  omega

/-- A block whose end is an empty line is one up to the first empty line. -/
theorem emptyLineAt_of_ended {input : List UInt8} {n : Nat} (inside : n ≤ input.length)
    (ended : Ended (input.take n)) (line : emptyLine <:+: input.take n) : EmptyLineAt input n := by
  have bound : ∀ m ≤ n, emptyLine <:+ input.take m → m = n := by
    intro m early here
    obtain ⟨k, short, inside', ended'⟩ := ended_of_emptyLine here
    have same := ended'.eq ended inside' inside
    omega
  obtain ⟨pre, post, text⟩ := line
  have early : (pre ++ emptyLine).length ≤ n := by
    have length := congrArg List.length text
    rw [List.length_take, Nat.min_eq_left inside, List.length_append] at length
    omega
  have front : input.take (pre ++ emptyLine).length = pre ++ emptyLine := by
    have whole : pre ++ emptyLine <+: input :=
      List.IsPrefix.trans ⟨post, text⟩ (List.take_prefix n input)
    exact (List.prefix_iff_eq_take.mp whole).symm
  have here : emptyLine <:+ input.take (pre ++ emptyLine).length := by
    rw [front]
    exact List.suffix_append pre emptyLine
  have last := bound _ early here
  rw [last] at here
  refine ⟨inside, here, ?_⟩
  intro m before found
  have same := bound m (by omega) found
  omega

theorem counted_of_strict {input : List UInt8} (strict : Strict input) {n : Nat}
    (inside : n ≤ input.length) : Ended (input.take n) ↔ EmptyLineAt input n := by
  constructor
  · intro ended
    obtain ⟨a, b, behind⟩ := ended.loose
    exact emptyLineAt_of_ended inside ended (strict _ (List.take_prefix n input) a b behind)
  · intro line
    obtain ⟨m, early, inside', ended⟩ := ended_of_emptyLine line.here
    obtain ⟨a, b, behind⟩ := ended.loose
    have found := emptyLineAt_of_ended inside' ended
      (strict _ (List.take_prefix m input) a b behind)
    rcases Nat.lt_or_eq_of_le early with before | rfl
    · exact absurd found.here (line.first m before)
    · exact ended

theorem strict_of_counted {input : List UInt8}
    (counted : ∀ n ≤ input.length, Ended (input.take n) ↔ EmptyLineAt input n) : Strict input := by
  intro front whole a b behind
  obtain ⟨block, early, ended⟩ := ended_of_loose behind
  have start := early.trans whole
  have same := List.prefix_iff_eq_take.mp start
  rw [same] at ended
  have line := ((counted block.length start.length_le).mp ended).here
  rw [← same] at line
  exact line.isInfix.trans early.isInfix

/-- **The counter is a search for the empty line exactly when** every loose end in the input comes
behind an empty line or is one. -/
theorem framed_iff (input : List UInt8) : Framed input ↔ Strict input := by
  constructor
  · intro framed
    exact strict_of_counted framed.counted
  · intro strict
    refine ⟨fun n inside => counted_of_strict strict inside, ?_⟩
    intro acceptKey n
    rw [readHandshake_consumes_iff]
    constructor
    · rintro ⟨inside, ended⟩
      exact (counted_of_strict strict inside).mp ended
    · intro line
      exact ⟨line.inside, (counted_of_strict strict line.inside).mpr line⟩

/-- A bare LF behind the last header: the LF, a CR and an LF end the response, with no empty line
in it. -/
def bareLineFeed : List UInt8 := unlines [responseLine, acceptLine] ++ [10] ++ crlf

/-- Without an empty line a response is consumed and accepted, and one with an empty line is
consumed to before its end. -/
theorem loosely_framed :
    readHandshake zeroKey.toList bareLineFeed = (.ok, some 72) ∧ ¬ Framed bareLineFeed ∧
      readHandshake zeroKey.toList (bareLineFeed ++ crlf) = (.ok, some 72) ∧
      ¬ Framed (bareLineFeed ++ crlf) := by
  have short : readHandshake zeroKey.toList bareLineFeed = (.ok, some 72) := by decide +kernel
  have long : readHandshake zeroKey.toList (bareLineFeed ++ crlf) = (.ok, some 72) := by
    decide +kernel
  refine ⟨short, ?_, long, ?_⟩
  · intro framed
    have line := (framed.consumed zeroKey.toList 72).mp (by rw [short])
    exact absurd line.here (by decide +kernel)
  · intro framed
    have line := (framed.consumed zeroKey.toList 72).mp (by rw [long])
    exact absurd line.here (by decide +kernel)

end Manet.Protocol
