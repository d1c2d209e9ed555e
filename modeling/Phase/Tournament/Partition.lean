import Mathlib.Tactic.Ring
import Phase.Lib.Searching
import Phase.Tournament.Rounds

/-! A field is split with as few byes as can be, and then as few short pods. -/
namespace Phase.Tournament
open Searching

namespace RoundPartition

/-- The seats of the pods, in the order in which they are filled. -/
def sizes (partition : RoundPartition) (arity : MatchArity) : List Nat :=
  List.replicate partition.fullPods arity.get ++
    List.replicate partition.shortPods arity.shortPodSize

/-- The pods and byes that a field of `n` splits into. A lone player has a bye, so a short pod
seats two or more. -/
structure Splits (partition : RoundPartition) (arity : MatchArity) (n : Nat) : Prop where
  seats : partition.fullPods * arity.get + partition.shortPods * arity.shortPodSize +
    partition.byes = n
  seated : partition.shortPods = 0 ∨ 2 ≤ arity.shortPodSize

/-- What the search takes these numbers of byes and short pods for. -/
def reported (arity : MatchArity) (fullPods shortPods byes : Nat) : RoundPartition :=
  if arity.shortPodSize < 2 then { fullPods, shortPods := 0, byes := byes + shortPods }
  else { fullPods, shortPods, byes }

end RoundPartition

open RoundPartition (Splits reported)

section
variable (n : Nat) (arity : MatchArity)

/-- The search stops at the first numbers that leave only full pods. -/
theorem partitionRound_first :
    ∃ fullPods shortPods byes, fullPods * arity.get + shortPods * arity.shortPodSize + byes = n ∧
        partitionRound n arity = reported arity fullPods shortPods byes ∧
        ∀ full short rest, short < arity.get →
          full * arity.get + short * arity.shortPodSize + rest = n →
          byes < rest ∨ byes = rest ∧ shortPods ≤ short := by
  have positive : 0 < arity.get := lt_of_lt_of_le Nat.two_pos arity.atLeast
  -- Every player may have a bye, so the search does not fail.
  have passes : ∀ full short rest, full * arity.get + short * arity.shortPodSize + rest = n →
      ¬ n - rest < short * arity.shortPodSize ∧
        (n - rest - short * arity.shortPodSize) % arity.get = 0 := by
    rintro full short rest rfl
    have left : full * arity.get + short * arity.shortPodSize + rest - rest -
        short * arity.shortPodSize = full * arity.get := by omega
    rw [left]
    exact ⟨by omega, Nat.mul_mod_left _ _⟩
  unfold partitionRound
  dsimp only
  cases found : (List.range (n + 1)).findSome? _ with
  | none =>
    have never := findSome?_range_eq_none.mp (findSome?_range_eq_none.mp found n n.lt_succ_self) 0
      positive
    obtain ⟨enough, divides⟩ := passes 0 0 n (by omega)
    rw [if_neg enough, if_neg (not_not.mpr divides)] at never
    cases never
  | some partition =>
    obtain ⟨byes, within, found, fewerByes⟩ := findSome?_range_eq_some.mp found
    obtain ⟨shortPods, short, found, fewerShort⟩ := findSome?_range_eq_some.mp found
    split at found
    · cases found
    · next enough =>
      split at found
      · cases found
      · next divides =>
        have exact := Nat.div_add_mod (n - byes - shortPods * arity.shortPodSize) arity.get
        rw [Nat.mul_comm] at exact
        refine ⟨(n - byes - shortPods * arity.shortPodSize) / arity.get, shortPods, byes,
          by omega, ?_, fun full short rest small splits => ?_⟩
        · exact (Option.some.inj found).symm
        · obtain ⟨fits, even⟩ := passes full short rest splits
          by_contra better
          rcases lt_trichotomy rest byes with fewer | rfl | more
          · have none_ := findSome?_range_eq_none.mp (fewerByes rest fewer) short small
            rw [if_neg fits, if_neg (not_not.mpr even)] at none_
            cases none_
          · have none_ := fewerShort short (by omega)
            rw [if_neg fits, if_neg (not_not.mpr even)] at none_
            cases none_
          · exact better (.inl more)

theorem partitionRound_splits : (partitionRound n arity).Splits arity n := by
  obtain ⟨fullPods, shortPods, byes, splits, isReported, -⟩ := partitionRound_first n arity
  rw [isReported, reported]
  split
  · next alone =>
    have one : arity.shortPodSize = 1 := by
      have := arity.atLeast
      unfold MatchArity.shortPodSize at alone ⊢
      omega
    rw [one] at splits
    exact ⟨by dsimp only; omega, .inl rfl⟩
  · exact ⟨splits, .inr (by omega)⟩

theorem partitionRound_seats :
    ((partitionRound n arity).sizes arity).sum + (partitionRound n arity).byes = n := by
  have seats := (partitionRound_splits n arity).seats
  rwa [RoundPartition.sizes, List.sum_append, List.sum_replicate_nat, List.sum_replicate_nat]

end

/-- As many short pods as a full pod has seats are as many players as one full pod fewer
than that. -/
theorem fewer_short {arity : MatchArity} (full short : Nat) :
    ∃ more, full * arity.get + short * arity.shortPodSize =
      more * arity.get + short % arity.get * arity.shortPodSize := by
  refine ⟨full + short / arity.get * arity.shortPodSize, ?_⟩
  conv_lhs => rw [← Nat.div_add_mod short arity.get]
  ring

/-- The field is split, no split has fewer byes, and none with as many has fewer short pods. -/
theorem partitionRound_least (n : Nat) (arity : MatchArity) :
    (partitionRound n arity).Splits arity n ∧ ∀ other : RoundPartition, other.Splits arity n →
      (partitionRound n arity).byes ≤ other.byes ∧
        (other.byes = (partitionRound n arity).byes →
          (partitionRound n arity).shortPods ≤ other.shortPods) := by
  refine ⟨partitionRound_splits n arity, fun other splits => ?_⟩
  obtain ⟨fullPods, shortPods, byes, sum, isReported, least⟩ := partitionRound_first n arity
  rw [isReported, reported]
  split
  · next alone =>
    -- At two seats every number of short pods is tried, so one bye settles the parity.
    have two : arity.get = 2 := by
      have := arity.atLeast
      unfold MatchArity.shortPodSize at alone
      omega
    have short : arity.shortPodSize = 1 := by rw [MatchArity.shortPodSize, two]
    obtain ⟨seats, none_⟩ := splits
    have none_ : other.shortPods = 0 := by omega
    rw [none_, two, short] at seats
    rw [two, short] at sum
    have odd := least (n / 2) (n % 2) 0 (by omega) (by rw [two, short]; omega)
    dsimp only
    omega
  · obtain ⟨more, same⟩ := @fewer_short arity other.fullPods other.shortPods
    have positive : 0 < arity.get := lt_of_lt_of_le Nat.two_pos arity.atLeast
    have better := least more (other.shortPods % arity.get) other.byes (Nat.mod_lt _ positive)
      (by rw [← same]; exact splits.seats)
    have less := Nat.mod_le other.shortPods arity.get
    dsimp only
    omega

/-- At two seats a lone player would make a short pod, and has a bye instead. -/
theorem lone_player_has_bye :
    ¬ ∀ (n : Nat) (arity : MatchArity) (full short byes : Nat),
      full * arity.get + short * arity.shortPodSize + byes = n →
        (partitionRound n arity).byes ≤ byes :=
  fun least => absurd (least 1 .headToHead 0 1 0 (by decide)) (by decide)

end Phase.Tournament
