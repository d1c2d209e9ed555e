import Mathlib.Tactic.Ring
import Mathlib.Tactic.Linarith

/-! Integer sequences whose increments repeat after every `k` steps. -/
namespace Repeating

variable {k : Nat} {f g : Nat → Int}

/-- The increments of a cycle come again in every cycle. -/
def Repeats (k : Nat) (f : Nat → Int) : Prop :=
  ∀ n, f (n + k + 1) - f (n + k) = f (n + 1) - f n

/-- What one cycle adds. -/
def drift (k : Nat) (f : Nat → Int) : Int := f k - f 0

section
variable (repeats : Repeats k f)
include repeats

theorem add_cycle (n : Nat) : f (n + k) = f n + drift k f := by
  induction n with
  | zero =>
    rw [Nat.zero_add, drift]
    omega
  | succ n ih =>
    have next := repeats n
    rw [show n + 1 + k = n + k + 1 by omega]
    omega

theorem add_cycles (n cycles : Nat) : f (n + cycles * k) = f n + cycles * drift k f := by
  induction cycles with
  | zero => simp
  | succ cycles ih =>
    rw [show n + (cycles + 1) * k = n + cycles * k + k by ring, add_cycle repeats, ih]
    push_cast
    ring

/-- A frame of a later cycle against that of the first. -/
theorem eq_first (n : Nat) : f n = f (n % k) + ↑(n / k) * drift k f := by
  have whole := add_cycles repeats (n % k) (n / k)
  rwa [Nat.mul_comm, Nat.mod_add_div] at whole

/-- Two sequences that agree throughout a cycle agree forever. -/
theorem agree (repeats' : Repeats k g) (positive : 0 < k) (first : ∀ j ≤ k, f j = g j) (n : Nat) :
    f n = g n := by
  have low : n % k ≤ k := (Nat.mod_lt n positive).le
  have same : drift k f = drift k g := by
    unfold drift
    rw [first k (Nat.le_refl k), first 0 (Nat.zero_le k)]
  rw [eq_first repeats, eq_first repeats', first _ low, same]

/-- A sequence that never falls in a cycle never falls below its start. -/
theorem start_le (positive : 0 < k) (first : ∀ j < k, f j ≤ f (j + 1)) (n : Nat) : f 0 ≤ f n := by
  have step : ∀ n, f n ≤ f (n + 1) := by
    intro n
    induction n using Nat.strongRecOn with
    | ind n ih =>
      by_cases low : n < k
      · exact first n low
      · have earlier := ih (n - k) (by omega)
        have same := repeats (n - k)
        rw [Nat.sub_add_cancel (by omega)] at same
        omega
  induction n with
  | zero => exact le_refl _
  | succ n ih => exact ih.trans (step n)

/-- A sequence that falls over a cycle gets below every bound. -/
theorem falls (down : drift k f < 0) (bound : Int) : ∃ n, f n ≤ bound := by
  refine ⟨0 + (f 0 - bound).toNat * k, ?_⟩
  rw [add_cycles repeats]
  have product : ((f 0 - bound).toNat : Int) * drift k f ≤ -(f 0 - bound).toNat := by
    nlinarith [Int.natCast_nonneg (f 0 - bound).toNat]
  omega

theorem rises (up : 0 < drift k f) (bound : Int) : ∃ n, bound ≤ f n := by
  have negated : Repeats k fun n => -f n := by
    intro n
    have := repeats n
    dsimp only
    omega
  have down : drift k (fun n => -f n) < 0 := by
    unfold drift at up ⊢
    dsimp only
    omega
  obtain ⟨n, low⟩ := falls negated down (-bound)
  exact ⟨n, by omega⟩

/-- A sequence that does not rise over a cycle is highest in the first one. -/
theorem le_first (flat : drift k f ≤ 0) (n : Nat) : f n ≤ f (n % k) := by
  rw [eq_first repeats n]
  have : (↑(n / k) : Int) * drift k f ≤ 0 :=
    mul_nonpos_of_nonneg_of_nonpos (Int.natCast_nonneg _) flat
  omega

end

end Repeating
