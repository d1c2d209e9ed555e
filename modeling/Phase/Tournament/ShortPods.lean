import Mathlib.Data.List.SplitLengths
import Phase.Tournament.Pods

/-! Who sits in the short pods again: nobody while others have not, unless the seating gives way
to rematches. -/
namespace Phase.Tournament
open List

section
variable {history : List TournamentPairing}

theorem podConflicts_eq_zero {pod : List String} :
    podConflicts history pod = 0 ↔ pod.Pairwise fun a b => haveFaced history a b = false := by
  induction pod with
  | nil => simp [podConflicts]
  | cons left pod ih =>
    rw [podConflicts, Nat.add_eq_zero_iff, ih, pairwise_cons, countP_eq_zero]
    simp only [Bool.not_eq_true]

theorem totalConflicts_eq_zero {pods : List (List String)} :
    totalConflicts history pods = 0 ↔ ∀ pod ∈ pods, podConflicts history pod = 0 := by
  rw [totalConflicts, List.sum_eq_zero_iff_forall_eq_nat]
  simp only [mem_map, forall_exists_index, and_imp, forall_apply_eq_imp_iff₂]

/-- Players who have not met are seated in their order. -/
theorem fillPod_cut {size : Nat} {pod remaining : List String} (enough : size ≤ remaining.length)
    (apart : (pod ++ remaining.take size).Pairwise fun a b => haveFaced history a b = false) :
    fillPod history size pod remaining = (pod ++ remaining.take size, remaining.drop size) := by
  induction size generalizing pod remaining with
  | zero => rw [fillPod, take_zero, append_nil, drop_zero]
  | succ size ih =>
    cases remaining with
    | nil => cases enough
    | cons candidate remaining =>
      have met := (pairwise_append.mp apart).2.2
      have first : (if pod.isEmpty then 0
          else ((candidate :: remaining).findIdx? fun candidate =>
            pod.all fun seated => !haveFaced history seated candidate).getD 0) = 0 := by
        split
        · rfl
        · have free : (pod.all fun seated => !haveFaced history seated candidate) = true := by
            refine all_eq_true.mpr fun seated mem => ?_
            rw [met seated mem candidate mem_cons_self, Bool.not_false]
          rw [findIdx?_cons, if_pos free, Option.getD_some]
      rw [fillPod, first]
      dsimp only [getElem?_cons_zero, eraseIdx_cons_zero]
      rw [ih (Nat.le_of_succ_le_succ enough) (by simpa using apart), append_assoc, take_succ_cons]
      rfl

/-- Pods that repeat no pair when they are cut from the order are the pods of the round. -/
theorem greedyAssign_cut {sizes : List Nat} {order : List String} (all : sizes.sum = order.length)
    (clear : totalConflicts history (sizes.splitLengths order) = 0) :
    greedyAssign history order sizes = sizes.splitLengths order := by
  induction sizes generalizing order with
  | nil => rfl
  | cons size sizes ih =>
    rw [splitLengths_cons, totalConflicts_eq_zero] at clear
    rw [sum_cons] at all
    have apart := podConflicts_eq_zero.mp (clear _ mem_cons_self)
    have cut : fillPod history size [] order = (order.take size, order.drop size) :=
      fillPod_cut (by omega) apart
    rw [greedyAssign, cut, splitLengths_cons]
    dsimp only
    rw [ih (by rw [length_drop]; omega)
      (totalConflicts_eq_zero.mpr fun pod mem => clear pod (mem_cons_of_mem _ mem))]

/-- Pods that repeat no pair are not repaired. -/
theorem repairRematches_clear {pods : List (List String)}
    (clear : totalConflicts history pods = 0) : repairRematches history pods = pods := by
  rw [repairRematches, clear, repairLoop]

theorem splitLengths_append {α : Type*} {first second : List Nat} {xs ys : List α}
    (whole : first.sum = xs.length) : (first ++ second).splitLengths (xs ++ ys) =
      first.splitLengths xs ++ second.splitLengths ys := by
  induction first generalizing xs with
  | nil =>
    rw [length_eq_zero_iff.mp whole.symm]
    rfl
  | cons size first ih =>
    rw [sum_cons] at whole
    rw [cons_append, splitLengths_cons, splitLengths_cons,
      take_append_of_le_length (by omega), drop_append_of_le_length (by omega),
      ih (by rw [length_drop]; omega), cons_append]

end

section
variable {pool : List String} {already : String → Bool} {chosen left : List String}

/-- A player is chosen again only if too few are left who would be chosen for the first time. -/
theorem FairChoice.too_few (fair : FairChoice pool already chosen left) {again : String}
    (mem : again ∈ chosen) (had : already again = true) :
    pool.countP (fun key => !already key) < chosen.length := by
  have nobody : left.countP (fun key => !already key) = 0 := by
    rw [countP_eq_zero]
    intro x memX isFresh
    have fresh := fair.freshFirst x memX (by simpa using isFresh) again mem
    rw [had] at fresh
    cases fresh
  rw [← fair.all.countP_eq, countP_append, nobody]
  exact countP_lt_length_iff.mpr ⟨again, mem, by simp [had]⟩

end

section
variable (order : List String) (arity : MatchArity) (history : List TournamentPairing)
  (round firstId : Nat)

/-- Those who are chosen for the short pods. -/
def shortChoice : List String :=
  (selectFair (seatedPlayers order arity history)
    ((partitionRound order.length arity).shortPods * arity.shortPodSize)
    (hadShortPod · arity history)).1

def shortSeats (n : Nat) (arity : MatchArity) : Nat :=
  (partitionRound n arity).shortPods * arity.shortPodSize

/-- The pods that the order is cut into when nobody is moved. -/
def cutPods : List (List String) :=
  ((partitionRound order.length arity).sizes arity).splitLengths (podOrder order arity history)

theorem shortChoice_length :
    (shortChoice order arity history).length = shortSeats order.length arity := by
  have size := seatedPlayers_length order arity history
  rw [RoundPartition.sizes, sum_append, sum_replicate_nat, sum_replicate_nat] at size
  exact selectFair_length _ _ _ (by omega)

theorem podsOf_clear (clear : totalConflicts history (cutPods order arity history) = 0) :
    podsOf (buildSwissRound order arity history round firstId) = cutPods order arity history := by
  rw [podsOf_buildSwissRound, greedyAssign_cut (podOrder_length order arity history).symm clear]
  exact repairRematches_clear clear

/-- The short ones among the pods that are cut seat only those chosen for them. -/
theorem mem_shortChoice {pod : List String} (mem : pod ∈ cutPods order arity history)
    (short : pod.length = arity.shortPodSize) : pod ⊆ shortChoice order arity history := by
  have chosen := shortChoice_length order arity history
  have size := podOrder_length order arity history
  rw [RoundPartition.sizes, sum_append, sum_replicate_nat, sum_replicate_nat] at size
  unfold cutPods podOrder RoundPartition.sizes at mem
  unfold shortChoice shortSeats at chosen
  unfold podOrder at size
  unfold shortChoice
  generalize selectFair (seatedPlayers order arity history) _ _ = choice at mem size chosen ⊢
  rw [length_append] at size
  have full : (replicate (partitionRound order.length arity).fullPods arity.get).sum =
      choice.2.length := by
    rw [sum_replicate_nat]
    omega
  rw [splitLengths_append full] at mem
  rcases mem_append.mp mem with whole | cut
  · have sizes := map_splitLengths_length _ _ full.le
    have isFull := eq_of_mem_replicate (sizes ▸ mem_map_of_mem whole)
    have := arity.atLeast
    unfold MatchArity.shortPodSize at short
    omega
  · intro key seat
    have inside := mem_flatten.mpr ⟨pod, cut, seat⟩
    rwa [flatten_splitLengths _ _ (by rw [sum_replicate_nat, chosen])] at inside

end

end Phase.Tournament
