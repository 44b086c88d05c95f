/-
# Manet.Flow.Consumer — consuming a stream that arrives in pieces

A consumer is called with the bytes that are there and says how many it took, what it
has to say to them, and whether to stop.  `drain` calls it until it stops, takes
nothing, or nothing is left; `deliver` drains after each piece of a stream, the rest
of one piece in front of the next.

Two laws say that the pieces do not matter.  `Homomorphic` is the law itself: draining
`u`, then what is left with `v` behind it, is draining `u ++ v`.  `Stable` is a law about
one call: an answer that takes something or stops does not change when more is there,
and one that waits has done nothing.  A stable consumer is homomorphic
(`Stable.homomorphic`), and delivers any division of a stream as the whole
(`Stable.deliver_agrees`).  Both are stated for the inputs of a predicate, for
consumers that are only right on those.
-/
import Mathlib.Data.List.Basic

namespace Manet.Flow

set_option autoImplicit false

structure Answer (σ ρ β : Type) where
  /-- `none`: go on. -/
  verdict : Option ρ
  state : σ
  taken : Nat
  output : List β

structure Outcome (σ α ρ β : Type) where
  verdict : Option ρ
  state : σ
  rest : List α
  output : List β

variable {σ α ρ β : Type}

/-- An outcome to whose output something was said before. -/
def Outcome.after (o : Outcome σ α ρ β) (earlier : List β) : Outcome σ α ρ β :=
  { o with output := earlier ++ o.output }

@[simp] theorem Outcome.after_nil (o : Outcome σ α ρ β) : o.after [] = o := rfl

theorem Outcome.after_after (o : Outcome σ α ρ β) (first second : List β) :
    (o.after second).after first = o.after (first ++ second) := by
  simp [Outcome.after, List.append_assoc]

section Drain

variable (step : σ → List α → Answer σ ρ β)

def drainFor : Nat → σ → List α → Outcome σ α ρ β
  | 0, s, u => ⟨none, s, u, []⟩
  | fuel + 1, s, u =>
      if u.isEmpty then ⟨none, s, u, []⟩
      else
        let a := step s u
        match a.verdict with
        | some r => ⟨some r, a.state, u.drop a.taken, a.output⟩
        | none =>
            if a.taken = 0 then ⟨none, a.state, u, a.output⟩
            else (drainFor fuel a.state (u.drop a.taken)).after a.output

/-- Call until the consumer stops, takes nothing, or nothing is left.  Every call but
the last takes something, so there are no more of them than elements. -/
def drain (s : σ) (u : List α) : Outcome σ α ρ β := drainFor step u.length s u

/-- The consumer waits: it neither stops nor takes anything. -/
def Answer.waits (a : Answer σ ρ β) : Prop := a.verdict = none ∧ a.taken = 0

/-- The cases of `drain`, and the induction it goes by. -/
theorem drain_induct {motive : σ → List α → Prop} (nil : ∀ s, motive s [])
    (stop : ∀ s u r, u ≠ [] → (step s u).verdict = some r → motive s u)
    (wait : ∀ s u, u ≠ [] → (step s u).waits → motive s u)
    (more : ∀ s u, u ≠ [] → (step s u).verdict = none → (step s u).taken ≠ 0 →
      motive (step s u).state (u.drop (step s u).taken) → motive s u)
    (s : σ) (u : List α) : motive s u := by
  generalize size : u.length = n
  induction n using Nat.strongRecOn generalizing s u with
  | ind n ih =>
      by_cases empty : u = []
      · subst empty
        exact nil s
      cases verdict : (step s u).verdict with
      | some r => exact stop s u r empty verdict
      | none =>
          by_cases zero : (step s u).taken = 0
          · exact wait s u empty ⟨verdict, zero⟩
          · have shorter : (u.drop (step s u).taken).length < n := by
              have : 0 < u.length := List.length_pos_iff.mpr empty
              rw [List.length_drop]
              omega
            exact more s u empty verdict zero (ih _ shorter _ _ rfl)

theorem drainFor_eq {fuel : Nat} {s : σ} {u : List α} (enough : u.length ≤ fuel) :
    drainFor step fuel s u = drain step s u := by
  unfold drain
  induction s, u using drain_induct step generalizing fuel with
  | nil s => cases fuel <;> rfl
  | stop s u r notEmpty verdict =>
      match u, fuel, notEmpty with
      | a :: u, fuel + 1, _ => simp [drainFor, verdict]
  | wait s u notEmpty waits =>
      match u, fuel, notEmpty with
      | a :: u, fuel + 1, _ => simp [drainFor, waits.1, waits.2]
  | more s u notEmpty verdict takes ih =>
      match u, fuel, notEmpty with
      | a :: u, fuel + 1, _ =>
          have shorter : ((a :: u).drop (step s (a :: u)).taken).length ≤ u.length := by
            rw [List.length_drop, List.length_cons]
            omega
          simp only [List.length_cons] at enough
          simp only [drainFor, List.isEmpty_cons, Bool.false_eq_true, if_false, verdict, takes,
            List.length_cons]
          rw [ih (Nat.le_trans shorter (Nat.le_of_succ_le_succ enough)), ← ih shorter]

@[simp] theorem drain_nil (s : σ) : drain step s [] = ⟨none, s, [], []⟩ := rfl

variable {step} {s : σ} {u : List α} (some' : u ≠ [])
include some'

theorem drain_stop {r : ρ} (stops : (step s u).verdict = some r) :
    drain step s u = ⟨some r, (step s u).state, u.drop (step s u).taken, (step s u).output⟩ := by
  match u, some' with
  | a :: u, _ => simp [drain, drainFor, stops]

theorem drain_wait (waits : (step s u).waits) :
    drain step s u = ⟨none, (step s u).state, u, (step s u).output⟩ := by
  match u, some' with
  | a :: u, _ => simp [drain, drainFor, waits.1, waits.2]

theorem drain_more (goesOn : (step s u).verdict = none) (takes : (step s u).taken ≠ 0) :
    drain step s u =
      (drain step (step s u).state (u.drop (step s u).taken)).after (step s u).output := by
  match u, some' with
  | a :: u, _ =>
      have enough : ((a :: u).drop (step s (a :: u)).taken).length ≤ u.length := by
        rw [List.length_drop, List.length_cons]
        omega
      rw [← drainFor_eq step enough]
      simp [drain, drainFor, goesOn, takes]

end Drain

section Facts

variable {step : σ → List α → Answer σ ρ β}

theorem drain_rest_length (s : σ) (u : List α) : (drain step s u).rest.length ≤ u.length := by
  induction s, u using drain_induct step with
  | nil s => exact Nat.le_refl 0
  | stop s u r notEmpty verdict =>
      rw [drain_stop notEmpty verdict, List.length_drop]
      exact Nat.sub_le _ _
  | wait s u notEmpty waits =>
      exact Nat.le_of_eq (by rw [drain_wait notEmpty waits])
  | more s u notEmpty verdict takes ih =>
      rw [drain_more notEmpty verdict takes]
      refine Nat.le_trans ih ?_
      rw [List.length_drop]
      exact Nat.sub_le _ _

/-- A drain only stops with a verdict that some call gave. -/
theorem drain_stops {allowed : ρ → Prop}
    (stops : ∀ s u r, (step s u).verdict = some r → allowed r) {s : σ} {u : List α} {r : ρ}
    (stopped : (drain step s u).verdict = some r) : allowed r := by
  induction s, u using drain_induct step with
  | nil s => cases stopped
  | stop s u r' notEmpty verdict =>
      rw [drain_stop notEmpty verdict] at stopped
      cases stopped
      exact stops s u r verdict
  | wait s u notEmpty waits =>
      rw [drain_wait notEmpty waits] at stopped
      cases stopped
  | more s u notEmpty verdict takes ih =>
      rw [drain_more notEmpty verdict takes] at stopped
      exact ih stopped

end Facts

/-! ## Pieces -/

/-- What was drained, and then `v` arrives. -/
def Outcome.resume (step : σ → List α → Answer σ ρ β) (o : Outcome σ α ρ β) (v : List α) :
    Outcome σ α ρ β :=
  (drain step o.state (o.rest ++ v)).after o.output

/-- Drain after each piece, the rest of the last one in front. -/
def deliver (step : σ → List α → Answer σ ρ β) : σ → List α → List (List α) → Outcome σ α ρ β
  | s, u, [] => ⟨none, s, u, []⟩
  | s, u, piece :: later =>
      let o := drain step s (u ++ piece)
      match o.verdict with
      | some _ => o
      | none => (deliver step o.state o.rest later).after o.output

/-- The same outcome, up to what a stopped consumer has not looked at. -/
structure Outcome.Agrees (o o' : Outcome σ α ρ β) : Prop where
  verdict : o.verdict = o'.verdict
  state : o.state = o'.state
  output : o.output = o'.output
  rest : o.verdict = none → o.rest = o'.rest

/-- On inputs of `good`, the input may arrive in two pieces. -/
def Homomorphic (good : σ → List α → Prop) (step : σ → List α → Answer σ ρ β) : Prop :=
  ∀ s u v, good s (u ++ v) → (drain step s u).verdict = none →
    drain step s (u ++ v) = (drain step s u).resume step v

structure Stable (good : σ → List α → Prop) (step : σ → List α → Answer σ ρ β) : Prop where
  /-- Waiting changes nothing. -/
  idle : ∀ s u, good s u → (step s u).waits → (step s u).state = s ∧ (step s u).output = []
  inside : ∀ s u, good s u → (step s u).taken ≤ u.length
  /-- Any other answer stands when more arrives. -/
  decided : ∀ s u v, good s (u ++ v) → ¬ (step s u).waits → step s (u ++ v) = step s u
  shorter : ∀ s u v, good s (u ++ v) → good s u
  next : ∀ s u, good s u → (step s u).verdict = none →
    good (step s u).state (u.drop (step s u).taken)

section Stable

variable {good : σ → List α → Prop} {step : σ → List α → Answer σ ρ β}
  (stable : Stable good step)
include stable

theorem Stable.drop_append {s : σ} {u v : List α} (fine : good s (u ++ v)) :
    (u ++ v).drop (step s u).taken = u.drop (step s u).taken ++ v :=
  List.drop_append_of_le_length (stable.inside s u (stable.shorter s u v fine))

/-- After a call that took something, what is left is still good. -/
theorem Stable.good_next {s : σ} {u v : List α} (fine : good s (u ++ v))
    (goesOn : (step s u).verdict = none) (takes : (step s u).taken ≠ 0) :
    good (step s u).state (u.drop (step s u).taken ++ v) := by
  have answer := stable.decided s u v fine fun waits => takes waits.2
  have further := stable.next s (u ++ v) fine (by rw [answer]; exact goesOn)
  rwa [answer, stable.drop_append fine] at further

/-- Draining a longer input begins as draining the shorter one: with its stop, or going
on from what it left. -/
theorem Stable.drain_append {s : σ} {u v : List α} (fine : good s (u ++ v)) :
    drain step s (u ++ v) =
      match (drain step s u).verdict with
      | some _ => { drain step s u with rest := (drain step s u).rest ++ v }
      | none => (drain step s u).resume step v := by
  induction s, u using drain_induct step with
  | nil s => simp [Outcome.resume]
  | stop s u r notEmpty verdict =>
      have answer := stable.decided s u v fine fun waits => by simp [waits.1] at verdict
      rw [drain_stop notEmpty verdict, drain_stop (by simp [notEmpty]) (answer ▸ verdict), answer,
        stable.drop_append fine]
  | wait s u notEmpty waits =>
      obtain ⟨same, silent⟩ := stable.idle s u (stable.shorter s u v fine) waits
      rw [drain_wait notEmpty waits, same, silent]
      simp [Outcome.resume]
  | more s u notEmpty verdict takes ih =>
      have answer := stable.decided s u v fine fun waits => takes waits.2
      rw [drain_more notEmpty verdict takes, drain_more (by simp [notEmpty]) (answer ▸ verdict)
        (answer ▸ takes), answer, stable.drop_append fine, ih (stable.good_next fine verdict takes)]
      cases verdict' : (drain step (step s u).state (u.drop (step s u).taken)).verdict with
      | some _ => simp only [Outcome.after, verdict']
      | none => simp only [Outcome.after, Outcome.resume, verdict', List.append_assoc]

theorem Stable.homomorphic : Homomorphic good step := by
  intro s u v fine goesOn
  rw [stable.drain_append fine, goesOn]

/-- What a drained input leaves is still good. -/
theorem Stable.good_drain {s : σ} {u v : List α} (fine : good s (u ++ v))
    (goesOn : (drain step s u).verdict = none) :
    good (drain step s u).state ((drain step s u).rest ++ v) := by
  induction s, u using drain_induct step with
  | nil s => exact fine
  | stop s u r notEmpty verdict =>
      rw [drain_stop notEmpty verdict] at goesOn
      cases goesOn
  | wait s u notEmpty waits =>
      rw [drain_wait notEmpty waits, (stable.idle s u (stable.shorter s u v fine) waits).1]
      exact fine
  | more s u notEmpty verdict takes ih =>
      rw [drain_more notEmpty verdict takes] at goesOn ⊢
      exact ih (stable.good_next fine verdict takes) goesOn

/-- What a drained input leaves is drained. -/
theorem Stable.drain_drained {s : σ} {u : List α} (fine : good s u)
    (goesOn : (drain step s u).verdict = none) :
    drain step (drain step s u).state (drain step s u).rest =
      ⟨none, (drain step s u).state, (drain step s u).rest, []⟩ := by
  induction s, u using drain_induct step with
  | nil s => rfl
  | stop s u r notEmpty verdict =>
      rw [drain_stop notEmpty verdict] at goesOn
      cases goesOn
  | wait s u notEmpty waits =>
      obtain ⟨same, silent⟩ := stable.idle s u fine waits
      rw [drain_wait notEmpty waits, same, silent]
      simp only [drain_wait notEmpty waits, same, silent]
  | more s u notEmpty verdict takes ih =>
      rw [drain_more notEmpty verdict takes] at goesOn ⊢
      exact ih (stable.next s u fine verdict) goesOn

/-- **Any division of a stream is delivered as the whole.** -/
theorem Stable.deliver_agrees {pieces : List (List α)} {s : σ} {u : List α}
    (fine : good s (u ++ pieces.flatten)) (drained : drain step s u = ⟨none, s, u, []⟩) :
    (deliver step s u pieces).Agrees (drain step s (u ++ pieces.flatten)) := by
  induction pieces generalizing s u with
  | nil =>
      rw [List.flatten_nil, List.append_nil, drained]
      exact ⟨rfl, rfl, rfl, fun _ => rfl⟩
  | cons piece later ih =>
      rw [List.flatten_cons, ← List.append_assoc] at fine ⊢
      rw [stable.drain_append fine]
      simp only [deliver]
      cases goesOn : (drain step s (u ++ piece)).verdict with
      | some r => exact ⟨goesOn, rfl, rfl, fun none => nomatch goesOn.symm.trans none⟩
      | none =>
          have settled := stable.drain_drained (stable.shorter _ _ _ fine) goesOn
          obtain ⟨verdict, state, output, rest⟩ := ih (stable.good_drain fine goesOn) settled
          refine ⟨verdict, state, ?_, rest⟩
          simp only [Outcome.after, Outcome.resume, output]

end Stable

end Manet.Flow
