/-
# Manet.Flow.Prog — programs that may not return, and the paths they take

A `Prog σ α` changes a state and returns a value, or does not return: it ran
out of fuel, or it called something that never answers.  The state it had
reached is kept in both cases, so a property of "every point of every run" is a
property of the states `exec` leaves, whether or not the program returned.

`Runs R p s Q` is the one judgement: started in `s`, every state `p` leaves is
reached from `s` by steps of `R`, and if `p` returns `a` in `s'` then `Q a s'`.
The rules follow the constructors (`runs_pure`, `Runs.bind`, `runs_modify`,
`runs_iterate`, `runs_inTurn`); an invariant of `R` then holds at every point of every run
(`Runs.invariant`) without looking at the program again.

`Ends G p s Q` is total: `p` returns, and the value meets `Q`; or it stops where `G` holds, for
loops that end only if their environment lets them.  A loop ends by a measure (`ends_measure`) or
by what its turns add up to (`ends_iterate`).
-/
import Mathlib.Logic.Relation

namespace Manet.Flow

set_option autoImplicit false

/-- A program over states `σ`.  `none` means it did not return. -/
abbrev Prog (σ : Type) := OptionT (StateM σ)

namespace Prog

variable {σ α β : Type}

def exec (p : Prog σ α) (s : σ) : Option α × σ := p s

/-- Run `body` until it gives a value, at most `fuel` times. -/
def iterate (body : Prog σ (Option α)) : Nat → Prog σ α
  | 0 => failure
  | fuel + 1 => do
      match ← body with
      | some a => pure a
      | none => iterate body fuel

/-- Run `p` as the turn of a loop that ends when `still` holds afterwards. -/
def settle (still : σ → Prop) [DecidablePred still] (p : Prog σ Unit) : Prog σ (Option Unit) := do
  p
  let s ← get
  return if still s then some () else none

/-- Run `body` on each element, in order. -/
def inTurn (body : α → Prog σ Unit) : List α → Prog σ Unit
  | [] => pure ()
  | a :: rest => do
      body a
      inTurn body rest

/-- Run `body` as long as `going` holds, at most `fuel` times. -/
def loopWhile (going : σ → Bool) (body : Prog σ Unit) : Nat → Prog σ Unit
  | 0 => pure ()
  | fuel + 1 => do
      let s ← get
      if going s then
        body
        loopWhile going body fuel

@[simp] theorem exec_pure (a : α) (s : σ) : (pure a : Prog σ α).exec s = (some a, s) := rfl

@[simp] theorem exec_get (s : σ) : (get : Prog σ σ).exec s = (some s, s) := rfl

@[simp] theorem exec_modify (f : σ → σ) (s : σ) :
    (modify f : Prog σ Unit).exec s = (some (), f s) := rfl

@[simp] theorem exec_failure (s : σ) : (failure : Prog σ α).exec s = (none, s) := rfl

theorem exec_bind (p : Prog σ α) (f : α → Prog σ β) (s : σ) :
    (p >>= f).exec s =
      match p.exec s with
      | (some a, s') => (f a).exec s'
      | (none, s') => (none, s') := by
  simp only [exec, bind, OptionT.bind, OptionT.mk, StateT.bind]
  rcases p s with ⟨_ | a, s'⟩ <;> rfl

theorem exec_bind_some {p : Prog σ α} {f : α → Prog σ β} {s s' : σ} {a : α}
    (first : p.exec s = (some a, s')) : (p >>= f).exec s = (f a).exec s' := by
  rw [exec_bind, first]

theorem exec_bind_none {p : Prog σ α} {f : α → Prog σ β} {s s' : σ}
    (first : p.exec s = (none, s')) : (p >>= f).exec s = (none, s') := by
  rw [exec_bind, first]

/-- A sequence that returns has returned from its first part. -/
theorem exec_bind_returns {p : Prog σ α} {f : α → Prog σ β} {s s' : σ} {b : β}
    (returned : (p >>= f).exec s = (some b, s')) :
    ∃ a s₁, p.exec s = (some a, s₁) ∧ (f a).exec s₁ = (some b, s') := by
  rcases executed : p.exec s with ⟨_ | a, s₁⟩
  · rw [exec_bind_none executed] at returned
    cases returned
  · rw [exec_bind_some executed] at returned
    exact ⟨a, s₁, rfl, returned⟩

/-- A loop that returns has a last turn, at which what its turns keep still holds. -/
theorem exec_iterate_returns {body : Prog σ (Option α)} {a : α} {s' : σ} (inv : σ → Prop)
    (keeps : ∀ s s₁, inv s → body.exec s = (some none, s₁) → inv s₁) : ∀ (fuel : Nat) (s : σ), inv s →
    (iterate body fuel).exec s = (some a, s') → ∃ s₁, inv s₁ ∧ body.exec s₁ = (some (some a), s')
  | 0, _, _, returned => by cases returned
  | fuel + 1, s, holds, returned => by
      obtain ⟨turn, s₁, first, later⟩ := exec_bind_returns returned
      cases turn with
      | none => exact exec_iterate_returns inv keeps fuel s₁ (keeps s s₁ holds first) later
      | some b =>
          cases later
          exact ⟨s, holds, first⟩

theorem exec_settle_returns {still : σ → Prop} [DecidablePred still] {p : Prog σ Unit} {s s' : σ}
    (returned : (settle still p).exec s = (some (some ()), s')) :
    p.exec s = (some (), s') ∧ still s' := by
  obtain ⟨u, s₁, first, later⟩ := exec_bind_returns returned
  have last : (some (if still s₁ then some () else none), s₁) = (some (some ()), s') := later
  by_cases holds : still s₁
  · rw [if_pos holds] at last
    cases last
    exact ⟨first, holds⟩
  · rw [if_neg holds] at last
    cases last

@[simp] theorem exec_get_bind (f : σ → Prog σ α) (s : σ) :
    ((get : Prog σ σ) >>= f).exec s = (f s).exec s := rfl

@[simp] theorem exec_modify_bind (g : σ → σ) (f : Unit → Prog σ α) (s : σ) :
    ((modify g : Prog σ Unit) >>= f).exec s = (f ()).exec (g s) := rfl

theorem exec_inTurn_append {body : α → Prog σ Unit} {l l' : List α} {s s' : σ}
    (first : (inTurn body l).exec s = (some (), s')) :
    (inTurn body (l ++ l')).exec s = (inTurn body l').exec s' := by
  induction l generalizing s with
  | nil =>
      obtain rfl : s = s' := (Prod.mk.inj first).2
      rfl
  | cons a rest ih =>
      rcases executed : (body a).exec s with ⟨_ | u, s₁⟩
      · rw [inTurn, exec_bind_none executed] at first
        cases first
      · rw [inTurn, exec_bind_some executed] at first
        rw [List.cons_append, inTurn, exec_bind_some executed]
        exact ih first

/-! Two programs that do the same. -/

theorem exec_bind_congr {p q : Prog σ α} {f g : α → Prog σ β} {s : σ} (first : p.exec s = q.exec s)
    (next : ∀ a s', p.exec s = (some a, s') → (f a).exec s' = (g a).exec s') :
    (p >>= f).exec s = (q >>= g).exec s := by
  rcases executed : p.exec s with ⟨_ | a, s'⟩
  · rw [exec_bind_none executed, exec_bind_none (first.symm.trans executed)]
  · rw [exec_bind_some executed, exec_bind_some (first.symm.trans executed)]
    exact next a s' executed

/-- Two loops over lists, one of which reads the elements of the other. -/
theorem exec_inTurn_congr {body : α → Prog σ Unit} {body' : β → Prog σ Unit} {reads : α → Option β}
    (inv : List α → σ → Prop)
    (step : ∀ a rest s, inv (a :: rest) s → ∃ b, reads a = some b ∧
      (body a).exec s = (body' b).exec s ∧ ∀ s', (body' b).exec s = (some (), s') → inv rest s') :
    ∀ (l : List α) (s : σ), inv l s →
      (inTurn body l).exec s = (inTurn body' (l.filterMap reads)).exec s
  | [], _, _ => rfl
  | a :: rest, s, holds => by
      obtain ⟨b, read, same, keeps⟩ := step a rest s holds
      rw [List.filterMap_cons_some read]
      refine exec_bind_congr same ?_
      intro _ s' returned
      exact exec_inTurn_congr inv step rest s' (keeps s' (same.symm.trans returned))

/-- A loop that goes on while it may is as many turns of another that does the same. -/
theorem exec_loopWhile_congr {going : σ → Bool} {body body' : Prog σ Unit} (inv : Nat → σ → Prop)
    (step : ∀ k s, inv (k + 1) s → going s = true → body.exec s = body'.exec s ∧
      ∀ s', body'.exec s = (some (), s') → inv k s') :
    ∀ (fuel : Nat) (s : σ), inv fuel s → ∃ j ≤ fuel,
      (loopWhile going body fuel).exec s = (inTurn (fun _ => body') (List.replicate j ())).exec s ∧
        (j = fuel ∨ going ((loopWhile going body fuel).exec s).2 = false)
  | 0, _, _ => ⟨0, Nat.le_refl 0, rfl, .inl rfl⟩
  | fuel + 1, s, holds => by
      rcases (Bool.eq_false_or_eq_true (going s)).symm with halts | goes
      · have stays : (loopWhile going body (fuel + 1)).exec s = (some (), s) := by
          simp only [loopWhile, exec_get_bind, halts, Bool.false_eq_true, if_false, exec_pure]
        rw [stays]
        exact ⟨0, Nat.zero_le _, rfl, .inr halts⟩
      have unrolled : (loopWhile going body (fuel + 1)).exec s =
          (body >>= fun _ => loopWhile going body fuel).exec s := by
        simp only [loopWhile, exec_get_bind, if_pos goes]
      obtain ⟨same, keeps⟩ := step fuel s holds goes
      rw [unrolled]
      rcases executed : body'.exec s with ⟨_ | u, s'⟩
      · rw [exec_bind_none (same.trans executed)]
        refine ⟨fuel + 1, Nat.le_refl _, ?_, .inl rfl⟩
        exact (exec_bind_none executed).symm
      · rw [exec_bind_some (same.trans executed)]
        obtain ⟨j, bound, equal, ended⟩ :=
          exec_loopWhile_congr inv step fuel s' (keeps s' executed)
        refine ⟨j + 1, Nat.succ_le_succ bound, ?_, ended.imp_left (congrArg (· + 1))⟩
        rw [List.replicate_succ, inTurn, exec_bind_some executed]
        exact equal

/-- What a loop leaves, whether or not it returns. -/
theorem exec_loopWhile_leaves {going : σ → Bool} {body : Prog σ Unit} {Q : σ → Prop}
    (inv : Nat → σ → Prop) (rests : ∀ k s, inv k s → Q s)
    (step : ∀ k s, inv (k + 1) s → going s = true → Q (body.exec s).2 ∧
      ∀ s', body.exec s = (some (), s') → inv k s') :
    ∀ (fuel : Nat) (s : σ), inv fuel s → Q ((loopWhile going body fuel).exec s).2
  | 0, s, holds => rests 0 s holds
  | fuel + 1, s, holds => by
      simp only [loopWhile, exec_get_bind]
      split
      next goes =>
        obtain ⟨left, keeps⟩ := step fuel s holds goes
        rcases executed : body.exec s with ⟨_ | u, s'⟩
        · rw [exec_bind_none executed]
          rwa [executed] at left
        · rw [exec_bind_some executed]
          exact exec_loopWhile_leaves inv rests step fuel s' (keeps s' executed)
      next => exact rests _ s holds

end Prog

/-! ## Runs along a step relation -/

section Runs

open Relation

variable {σ α β : Type} {R : σ → σ → Prop}

/-- Every state `p` leaves from `s` is reached by steps of `R`, and a returned
value meets `Q`. -/
def Runs (R : σ → σ → Prop) (p : Prog σ α) (s : σ) (Q : α → σ → Prop) : Prop :=
  ReflTransGen R s (p.exec s).2 ∧ ∀ a, (p.exec s).1 = some a → Q a (p.exec s).2

/-- What is left is reached along another relation as well. -/
theorem Runs.along {R' : σ → σ → Prop} {p : Prog σ α} {s : σ} {Q : α → σ → Prop} (runs : Runs R p s Q)
    (path : ReflTransGen R' s (p.exec s).2) :
    Runs R p s fun a s' => Q a s' ∧ ReflTransGen R' s s' :=
  ⟨runs.1, fun a returned => ⟨runs.2 a returned, path⟩⟩

/-- A program whose execution is known runs as that execution does. -/
theorem Runs.of_exec {p : Prog σ α} {s s' : σ} {a : α} {Q : α → σ → Prop}
    (executed : p.exec s = (some a, s')) (path : ReflTransGen R s s') (post : Q a s') :
    Runs R p s Q := by
  unfold Runs
  rw [executed]
  refine ⟨path, ?_⟩
  intro b returned
  cases returned
  exact post

/-- A program that is known not to return still takes a path. -/
theorem Runs.of_halt {p : Prog σ α} {s s' : σ} {Q : α → σ → Prop}
    (executed : p.exec s = (none, s')) (path : ReflTransGen R s s') : Runs R p s Q := by
  unfold Runs
  rw [executed]
  exact ⟨path, fun a returned => by cases returned⟩

/-- A program that goes on as `q` from a state reached by a path. -/
theorem Runs.after {p q : Prog σ α} {s s' : σ} {Q : α → σ → Prop}
    (executed : p.exec s = q.exec s') (path : ReflTransGen R s s') (next : Runs R q s' Q) :
    Runs R p s Q := by
  unfold Runs
  rw [executed]
  exact ⟨path.trans next.1, next.2⟩

theorem runs_pure {a : α} {s : σ} {Q : α → σ → Prop} (post : Q a s) :
    Runs R (pure a : Prog σ α) s Q :=
  .of_exec rfl .refl post

theorem runs_failure {s : σ} {Q : α → σ → Prop} : Runs R (failure : Prog σ α) s Q :=
  .of_halt rfl .refl

theorem runs_modify {f : σ → σ} {s : σ} {Q : Unit → σ → Prop} (step : R s (f s))
    (post : Q () (f s)) : Runs R (modify f : Prog σ Unit) s Q :=
  .of_exec rfl (.single step) post

theorem Runs.weaken {p : Prog σ α} {s : σ} {Q Q' : α → σ → Prop} (runs : Runs R p s Q)
    (implies : ∀ a s', ReflTransGen R s s' → Q a s' → Q' a s') : Runs R p s Q' :=
  ⟨runs.1, fun a returned => implies a _ runs.1 (runs.2 a returned)⟩

/-- Sequencing.  The continuation may use that its start was reached from `s`. -/
theorem Runs.bind {p : Prog σ α} {f : α → Prog σ β} {s : σ} {Q : α → σ → Prop}
    {Q' : β → σ → Prop} (first : Runs R p s Q)
    (next : ∀ a s', ReflTransGen R s s' → Q a s' → Runs R (f a) s' Q') :
    Runs R (p >>= f) s Q' := by
  obtain ⟨path, post⟩ := first
  rcases executed : p.exec s with ⟨_ | a, s'⟩
  · rw [executed] at path
    exact .of_halt (Prog.exec_bind_none executed) path
  · rw [executed] at path post
    obtain ⟨later, done⟩ := next a s' path (post a rfl)
    unfold Runs
    rw [Prog.exec_bind_some executed]
    exact ⟨path.trans later, done⟩

theorem runs_get_bind {f : σ → Prog σ α} {s : σ} {Q : α → σ → Prop}
    (next : Runs R (f s) s Q) : Runs R ((get : Prog σ σ) >>= f) s Q := next

theorem runs_modify_bind {g : σ → σ} {f : Unit → Prog σ α} {s : σ} {Q : α → σ → Prop}
    (step : R s (g s)) (next : Runs R (f ()) (g s) Q) :
    Runs R ((modify g : Prog σ Unit) >>= f) s Q :=
  (runs_modify (Q := fun _ s' => s' = g s) step rfl).bind (by
    rintro a s' - rfl
    exact next)

/-- What one turn of a loop leaves: a value meeting `Q`, or the invariant. -/
def Turn (inv : σ → Prop) (Q : α → σ → Prop) : Option α → σ → Prop
  | some a, s => Q a s
  | none, s => inv s

theorem Turn.imp {inv inv' : σ → Prop} {Q Q' : α → σ → Prop} {r : Option α} {s : σ}
    (more : inv s → inv' s) (done : ∀ a, Q a s → Q' a s) (turn : Turn inv Q r s) :
    Turn inv' Q' r s := by
  cases r with
  | none => exact more turn
  | some a => exact done a turn

/-- The loop rule: `inv` holds whenever the body starts, and the body either
gives a value meeting `Q` or restores `inv`. -/
theorem runs_iterate {body : Prog σ (Option α)} {Q : α → σ → Prop} (inv : σ → Prop)
    (step : ∀ s, inv s → Runs R body s (Turn inv Q)) :
    ∀ (fuel : Nat) (s : σ), inv s → Runs R (Prog.iterate body fuel) s Q
  | 0, _, _ => runs_failure
  | fuel + 1, s, holds => by
      refine (step s holds).bind ?_
      rintro (_ | a) s' - post
      · exact runs_iterate inv step fuel s' post
      · exact runs_pure post

/-- A turn that ends the loop when `still` holds. -/
theorem Runs.settle {still : σ → Prop} [DecidablePred still] {p : Prog σ Unit} {s : σ} {Q : σ → Prop}
    (runs : Runs R p s fun _ s' => Q s') :
    Runs R (Prog.settle still p) s
      (Turn (fun s' => Q s' ∧ ¬ still s') fun _ s' => Q s' ∧ still s') := by
  refine runs.bind ?_
  rintro - s' - post
  refine runs_get_bind ?_
  by_cases holds : still s'
  · rw [if_pos holds]
    exact runs_pure ⟨post, holds⟩
  · rw [if_neg holds]
    exact runs_pure ⟨post, holds⟩

/-- The rule for lists: `inv rest` holds before `rest` is gone through. -/
theorem runs_inTurn {body : α → Prog σ Unit} (inv : List α → σ → Prop)
    (step : ∀ a rest s, inv (a :: rest) s → Runs R (body a) s fun _ s' => inv rest s') :
    ∀ (l : List α) (s : σ), inv l s → Runs R (Prog.inTurn body l) s fun _ s' => inv [] s'
  | [], _, holds => runs_pure holds
  | a :: rest, s, holds =>
      (step a rest s holds).bind fun _ s' _ holds' => runs_inTurn inv step rest s' holds'

/-- What every step keeps, every run keeps, returned or not. -/
theorem path_invariant {inv : σ → Prop} (keeps : ∀ s s', R s s' → inv s → inv s')
    {s s' : σ} (path : ReflTransGen R s s') (holds : inv s) : inv s' := by
  induction path with
  | refl => exact holds
  | tail _ last ih => exact keeps _ _ last ih

/-- `p` goes along `R` wherever it is started. -/
def Walks (R : σ → σ → Prop) (p : Prog σ α) : Prop := ∀ s, Runs R p s fun _ _ => True

theorem walks_pure (a : α) : Walks R (pure a : Prog σ α) := fun _ => runs_pure trivial

theorem walks_failure : Walks R (failure : Prog σ α) := fun _ => runs_failure

theorem walks_get : Walks R (get : Prog σ σ) := fun _ => .of_exec rfl .refl trivial

theorem walks_modify {f : σ → σ} (step : ∀ s, R s (f s)) : Walks R (modify f : Prog σ Unit) :=
  fun s => runs_modify (step s) trivial

theorem Walks.bind {p : Prog σ α} {f : α → Prog σ β} (first : Walks R p)
    (next : ∀ a, Walks R (f a)) : Walks R (p >>= f) :=
  fun s => (first s).bind fun a s' _ _ => next a s'

/-- A sequence goes on along `R` from where its first part has come to. -/
theorem exec_bind_walks {p : Prog σ α} {f : α → Prog σ β} (next : ∀ a, Walks R (f a)) (s : σ) :
    ReflTransGen R (p.exec s).2 ((p >>= f).exec s).2 := by
  rcases executed : p.exec s with ⟨_ | a, s'⟩
  · rw [Prog.exec_bind_none executed]
  · rw [Prog.exec_bind_some executed]
    exact (next a s').1

theorem walks_iterate {body : Prog σ (Option α)} (walks : Walks R body) (fuel : Nat) :
    Walks R (Prog.iterate body fuel) := by
  intro s
  refine runs_iterate (fun _ => True) (fun s _ => (walks s).weaken ?_) fuel s trivial
  rintro (_ | _) _ - - <;> trivial

theorem walks_inTurn {body : α → Prog σ Unit} (l : List α) (walks : ∀ a ∈ l, Walks R (body a)) :
    Walks R (Prog.inTurn body l) := by
  induction l with
  | nil => exact walks_pure ()
  | cons a rest ih =>
      exact (walks a List.mem_cons_self).bind fun _ =>
        ih fun a member => walks a (List.mem_cons_of_mem _ member)

theorem Walks.settle {still : σ → Prop} [DecidablePred still] {p : Prog σ Unit} (walks : Walks R p) :
    Walks R (Prog.settle still p) :=
  walks.bind fun _ => walks_get.bind fun _ => walks_pure _

/-- A loop goes on from where its first turn has come to. -/
theorem exec_iterate_walks {body : Prog σ (Option α)} (walks : Walks R body) (fuel : Nat) (s : σ) :
    ReflTransGen R (body.exec s).2 ((Prog.iterate body (fuel + 1)).exec s).2 := by
  refine exec_bind_walks (fun turn => ?_) s
  cases turn with
  | none => exact walks_iterate walks fuel
  | some a => exact walks_pure a

theorem Runs.invariant {p : Prog σ α} {s : σ} {Q : α → σ → Prop} {inv : σ → Prop}
    (runs : Runs R p s Q) (keeps : ∀ s s', R s s' → inv s → inv s') (holds : inv s) :
    inv (p.exec s).2 :=
  path_invariant keeps runs.1 holds

end Runs

/-! ## Programs that return -/

section Ends

variable {σ α β : Type} {G : σ → Prop}

/-- Started in `s`, `p` returns a value that meets `Q`, unless it stops where `G` holds. -/
def Ends (G : σ → Prop) (p : Prog σ α) (s : σ) (Q : α → σ → Prop) : Prop :=
  match p.exec s with
  | (some a, s') => Q a s'
  | (none, s') => G s'

theorem ends_pure {a : α} {s : σ} {Q : α → σ → Prop} (post : Q a s) :
    Ends G (pure a : Prog σ α) s Q := post

theorem ends_modify {f : σ → σ} {s : σ} {Q : Unit → σ → Prop} (post : Q () (f s)) :
    Ends G (modify f : Prog σ Unit) s Q := post

theorem Ends.bind {p : Prog σ α} {f : α → Prog σ β} {s : σ} {Q : α → σ → Prop}
    {Q' : β → σ → Prop} (first : Ends G p s Q) (next : ∀ a s', Q a s' → Ends G (f a) s' Q') :
    Ends G (p >>= f) s Q' := by
  unfold Ends at first ⊢
  rcases executed : p.exec s with ⟨_ | a, s'⟩
  · rw [executed] at first
    rw [Prog.exec_bind_none executed]
    exact first
  · rw [executed] at first
    rw [Prog.exec_bind_some executed]
    exact next a s' first

theorem ends_get_bind {f : σ → Prog σ α} {s : σ} {Q : α → σ → Prop} (next : Ends G (f s) s Q) :
    Ends G ((get : Prog σ σ) >>= f) s Q := next

theorem ends_modify_bind {g : σ → σ} {f : Unit → Prog σ α} {s : σ} {Q : α → σ → Prop}
    (next : Ends G (f ()) (g s) Q) : Ends G ((modify g : Prog σ Unit) >>= f) s Q := next

theorem Ends.weaken {p : Prog σ α} {s : σ} {Q Q' : α → σ → Prop} (ends : Ends G p s Q)
    (implies : ∀ a s', Q a s' → Q' a s') : Ends G p s Q' := by
  unfold Ends at ends ⊢
  rcases executed : p.exec s with ⟨_ | a, s'⟩ <;> rw [executed] at ends
  · exact ends
  · exact implies a s' ends

/-- What is known of the execution may be used of the value. -/
theorem Ends.returned {p : Prog σ α} {s : σ} {Q : α → σ → Prop} (ends : Ends G p s Q) :
    Ends G p s fun a s' => Q a s' ∧ p.exec s = (some a, s') := by
  unfold Ends at ends ⊢
  rcases executed : p.exec s with ⟨_ | a, s'⟩ <;> rw [executed] at ends
  · exact ends
  · exact ⟨ends, rfl⟩

theorem Ends.settle {still : σ → Prop} [DecidablePred still] {p : Prog σ Unit} {s : σ} {Q : σ → Prop}
    (ends : Ends G p s fun _ s' => Q s') :
    Ends G (Prog.settle still p) s
      (Turn (fun s' => Q s' ∧ ¬ still s') fun _ s' => Q s' ∧ still s') := by
  refine ends.bind fun _ s' post => ends_get_bind ?_
  by_cases holds : still s'
  · rw [if_pos holds]
    exact ends_pure ⟨post, holds⟩
  · rw [if_neg holds]
    exact ends_pure ⟨post, holds⟩

/-- The loop rule: `inv n` is what a turn needs that is followed by `n` turns at most. -/
theorem ends_iterate {body : Prog σ (Option α)} {Q : α → σ → Prop} (inv : Nat → σ → Prop)
    (step : ∀ n s, inv (n + 1) s → Ends G body s (Turn (inv n) Q)) (out : ∀ s, inv 0 s → G s) :
    ∀ (fuel : Nat) (s : σ), inv fuel s → Ends G (Prog.iterate body fuel) s Q
  | 0, s, holds => out s holds
  | fuel + 1, s, holds => by
      refine (step fuel s holds).bind ?_
      rintro (_ | a) s' post
      · exact ends_iterate inv step out fuel s' post
      · exact post

/-- The loop rule for a measure that every turn lowers. -/
theorem ends_measure {body : Prog σ (Option α)} {Q : α → σ → Prop} (inv : σ → Prop) (size : σ → Nat)
    (step : ∀ s, inv s → Ends G body s (Turn (fun s' => inv s' ∧ size s' < size s) Q)) {fuel : Nat}
    {s : σ} (holds : inv s) (ample : size s < fuel) : Ends G (Prog.iterate body fuel) s Q := by
  refine ends_iterate (fun n s => inv s ∧ size s < n) ?_ ?_ fuel s ⟨holds, ample⟩
  · rintro n s ⟨holds, bound⟩
    refine (step s holds).weaken ?_
    rintro (_ | a) s' post
    · exact ⟨post.1, by have smaller := post.2; omega⟩
    · exact post
  · rintro s ⟨-, impossible⟩
    omega

end Ends

end Manet.Flow
