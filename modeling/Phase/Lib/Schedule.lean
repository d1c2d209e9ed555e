import Mathlib.Logic.Basic

/-! Schedules of labelled moves. Each label moves a state in at most one way, and
two different labels that can both move do not get in each other's way. -/
namespace Schedule

variable {σ ι : Type*}

/-- Two different moves from one state can be made one after the other, in either
order, with the same result. -/
def Commutes (step : ι → σ → Option σ) : Prop :=
  ∀ {i j : ι} {s a b : σ}, i ≠ j → step i s = some a → step j s = some b →
    ∃ c, step j a = some c ∧ step i b = some c

/-- No label can move. -/
def Ended (step : ι → σ → Option σ) (s : σ) : Prop := ∀ i, step i s = none

inductive Runs (step : ι → σ → Option σ) : σ → Nat → σ → Prop
  | nil (s : σ) : Runs step s 0 s
  | cons {s t u : σ} {n : Nat} (i : ι) :
      step i s = some t → Runs step t n u → Runs step s (n + 1) u

variable {step : ι → σ → Option σ}

theorem Runs.snoc {s t u : σ} {n : Nat} (run : Runs step s n t) (i : ι)
    (moved : step i t = some u) : Runs step s (n + 1) u := by
  induction run with
  | nil => exact .cons i moved (.nil u)
  | cons j first _ ih => exact .cons j first (ih moved)

/-- A run that ends must make every move that is open now, so the move can be
made first. -/
theorem Runs.move_first (commutes : Commutes step) {s a t : σ} {n : Nat} {i : ι}
    (run : Runs step s n t) (ended : Ended step t) (moved : step i s = some a) :
    ∃ m, n = m + 1 ∧ Runs step a m t := by
  induction run generalizing a with
  | nil s =>
    rw [ended i] at moved
    cases moved
  | @cons s b t n j first rest ih =>
    by_cases same : i = j
    · subst same
      rw [moved] at first
      cases first
      exact ⟨n, rfl, rest⟩
    · obtain ⟨c, after, before⟩ := commutes same moved first
      obtain ⟨m, rfl, tail⟩ := ih ended before
      exact ⟨m + 1, rfl, .cons j after tail⟩

/-- Every complete schedule ends in the same state, after as many moves. -/
theorem Runs.end_unique (commutes : Commutes step) {s t u : σ} {n m : Nat}
    (left : Runs step s n t) (leftEnded : Ended step t) (right : Runs step s m u)
    (rightEnded : Ended step u) : t = u ∧ n = m := by
  induction right generalizing n with
  | nil s =>
    cases left with
    | nil => exact ⟨rfl, rfl⟩
    | cons i first _ =>
      rw [rightEnded i] at first
      cases first
  | cons i first _ ih =>
    obtain ⟨k, rfl, rest⟩ := left.move_first commutes leftEnded first
    obtain ⟨same, length⟩ := ih rest rightEnded
    exact ⟨same, by omega⟩

end Schedule
