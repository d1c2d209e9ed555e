import Mathlib.Data.List.GetD
import Phase.Lib.Fallible
import Phase.Lib.Indexed
import Phase.Tournament.Partition

/-! A Swiss round seats every player it is given, once. -/
namespace Phase.Tournament
open Fallible Indexed List

theorem length_filter_contains {chosen xs : List Nat} (distinct : xs.Nodup) (once : chosen.Nodup)
    (inside : chosen ⊆ xs) : (xs.filter fun x => chosen.contains x).length = chosen.length := by
  refine Perm.length_eq ((perm_ext_iff_of_nodup (distinct.filter _) once).mpr fun x => ?_)
  rw [mem_filter, contains_iff_mem]
  exact ⟨And.right, fun mem => ⟨inside mem, mem⟩⟩

section
variable (pool : List String) (count : Nat) (already : String → Bool)

theorem fairIndices_spec (enough : count ≤ pool.length) :
    (fairIndices pool count already).Nodup ∧ fairIndices pool count already ⊆ range pool.length ∧
      (fairIndices pool count already).length = count := by
  unfold fairIndices
  dsimp only
  generalize isUpward : (range pool.length).reverse = upward
  have distinct : upward.Nodup := by
    rw [← isUpward, nodup_reverse]
    exact nodup_range
  have size : upward.length = pool.length := by simp [← isUpward]
  have inside : upward ⊆ range pool.length := by simp [← isUpward]
  generalize isFresh : (upward.filter fun index => !already (pool.getD index "")).take count = fresh
  have freshSub : fresh.Sublist upward := isFresh ▸ (take_sublist _ _).trans filter_sublist
  have freshSize : fresh.length ≤ count := isFresh ▸ length_take_le _ _
  have kept := length_filter_contains distinct (freshSub.nodup distinct) freshSub.subset
  have parts := length_eq_length_filter_add (l := upward) fun x => fresh.contains x
  refine ⟨?_, ?_, ?_⟩
  · refine nodup_append.mpr ⟨freshSub.nodup distinct,
      (take_sublist _ _).nodup (distinct.filter _), ?_⟩
    rintro x mem _ mem' rfl
    have other := (mem_filter.mp (mem_of_mem_take mem')).2
    simp [mem] at other
  · intro x mem
    rcases mem_append.mp mem with mem | mem
    · exact inside (freshSub.subset mem)
    · exact inside (mem_filter.mp (mem_of_mem_take mem)).1
  · rw [length_append, length_take]
    omega

theorem selectFair_perm :
    ((selectFair pool count already).1 ++ (selectFair pool count already).2).Perm pool := by
  simp only [selectFair, partition_eq_filter_filter]
  generalize fairIndices pool count already = chosen
  have split := (filter_append_perm (fun entry : String × Nat => chosen.contains entry.2)
    pool.zipIdx).map Prod.fst
  rw [zipIdx_map_fst, map_append] at split
  exact split

theorem selectFair_length (enough : count ≤ pool.length) :
    (selectFair pool count already).1.length = count := by
  obtain ⟨once, inside, size⟩ := fairIndices_spec pool count already enough
  have picked := length_filter_contains nodup_range once inside
  simp only [selectFair, partition_eq_filter_filter]
  rw [length_map, ← countP_eq_length_filter]
  have places : pool.zipIdx.map Prod.snd = range pool.length := by
    rw [zipIdx_map_snd, range_eq_range']
  rw [← places, ← countP_eq_length_filter, countP_map] at picked
  exact picked.trans size

end

section
variable (history : List TournamentPairing)

theorem fillPod_perm (size : Nat) (pod remaining : List String) :
    ((fillPod history size pod remaining).1 ++ (fillPod history size pod remaining).2).Perm
      (pod ++ remaining) := by
  induction size generalizing pod remaining with
  | zero => exact .refl _
  | succ size ih =>
    rw [fillPod]
    split
    · exact .refl _
    · next index candidate found =>
      refine (ih _ _).trans ?_
      rw [append_assoc]
      refine Perm.append_left pod ?_
      obtain ⟨inside, rfl⟩ := List.getElem?_eq_some_iff.mp found
      exact (getElem_cons_eraseIdx_perm inside)

/-- The number of players a pod is left with, and how many still wait. -/
theorem fillPod_length (size : Nat) (pod remaining : List String)
    (enough : size ≤ remaining.length) :
    (fillPod history size pod remaining).2.length + size = remaining.length := by
  induction size generalizing pod remaining with
  | zero => rfl
  | succ size ih =>
    rw [fillPod]
    generalize isIndex : (if pod.isEmpty = true then 0 else _) = index
    have inside : index < remaining.length := by
      rw [← isIndex]
      split
      · omega
      · cases found : remaining.findIdx? _ with
        | none => simpa using by omega
        | some place => exact (findIdx?_eq_some_iff_findIdx_eq.mp found).1
    rw [getElem?_eq_getElem inside]
    dsimp only
    have less := ih (pod ++ [remaining[index]]) (remaining.eraseIdx index)
      (by rw [length_eraseIdx_of_lt inside]; omega)
    rw [length_eraseIdx_of_lt inside] at less
    omega

theorem greedyAssign_perm (sizes : List Nat) (remaining : List String)
    (all : sizes.sum = remaining.length) :
    (greedyAssign history remaining sizes).flatten.Perm remaining := by
  induction sizes generalizing remaining with
  | nil =>
    have none_ : remaining = [] := length_eq_zero_iff.mp (by simpa using all.symm)
    rw [none_]
    exact .refl _
  | cons size sizes ih =>
    rw [sum_cons] at all
    have left := fillPod_length history size [] remaining (by omega)
    refine ((ih _ (by omega)).append_left _).trans ?_
    exact fillPod_perm history size [] remaining

end

/-- A seat each of two pods. -/
structure Exchange (pods : List (List String)) (i x j y : Nat) : Prop where
  distinct : i ≠ j
  insideI : i < pods.length
  insideJ : j < pods.length
  seatX : x < (pods.getD i []).length
  seatY : y < (pods.getD j []).length

section
variable {pods : List (List String)} {i x j y : Nat}

/-- What an exchange does to a total over the pods. -/
theorem sum_swapSeats (f : List String → Nat) (distinct : i ≠ j) (insideI : i < pods.length)
    (insideJ : j < pods.length) :
    ((swapSeats pods i x j y).map f).sum + f (pods.getD i []) + f (pods.getD j []) =
      (pods.map f).sum + f ((swapSeats pods i x j y).getD i []) +
        f ((swapSeats pods i x j y).getD j []) := by
  unfold swapSeats
  dsimp only
  generalize (pods.getD i []).set x ((pods.getD j []).getD y "") = p
  generalize (pods.getD j []).set y ((pods.getD i []).getD x "") = q
  have first := sum_map_set f insideI p
  have second := sum_map_set f (show j < (pods.set i p).length by simpa using insideJ) q
  rw [getElem_set_ne distinct] at second
  rw [getD_set, getD_set, getD_set, getD_eq_getElem _ _ insideI,
    getD_eq_getElem _ _ insideJ, if_neg fun same => distinct same.1.symm,
    if_pos ⟨rfl, insideI⟩, if_pos ⟨rfl, by simpa using insideJ⟩]
  omega

theorem swapSeats_perm (exchange : Exchange pods i x j y) :
    (swapSeats pods i x j y).flatten.Perm pods.flatten := by
  obtain ⟨distinct, insideI, insideJ, seatX, seatY⟩ := exchange
  rw [perm_iff_count]
  intro key
  rw [count_flatten, count_flatten]
  have total := @sum_swapSeats pods i x j y (count key) distinct insideI insideJ
  have ownI : (swapSeats pods i x j y).getD i [] =
      (pods.getD i []).set x ((pods.getD j []).getD y "") := by
    unfold swapSeats
    rw [getD_set, if_neg fun same => distinct same.1.symm, getD_set, if_pos ⟨rfl, insideI⟩]
  have ownJ : (swapSeats pods i x j y).getD j [] =
      (pods.getD j []).set y ((pods.getD i []).getD x "") := by
    unfold swapSeats
    rw [getD_set, if_pos ⟨rfl, by simpa using insideJ⟩]
  rw [ownI, ownJ] at total
  have left := count_set seatX ((pods.getD j []).getD y "") key
  have right := count_set seatY ((pods.getD i []).getD x "") key
  rw [← getD_eq_getElem _ "" seatX] at left
  rw [← getD_eq_getElem _ "" seatY] at right
  omega

end

section
variable {history : List TournamentPairing}

section
variable {pods better : List (List String)} (found : improvingSwap history pods = some better)
include found

/-- An exchange that the search finds saves rematches in its two pods. -/
theorem improvingSwap_exchange :
    ∃ i x j y, Exchange pods i x j y ∧ better = swapSeats pods i x j y ∧
      podConflicts history (better.getD i []) + podConflicts history (better.getD j []) <
        podConflicts history (pods.getD i []) + podConflicts history (pods.getD j []) := by
  obtain ⟨i, memI, found⟩ := exists_of_findSome?_eq_some found
  split at found
  · cases found
  · obtain ⟨j, memJ, found⟩ := exists_of_findSome?_eq_some found
    split at found
    · cases found
    · next distinct =>
      obtain ⟨x, memX, found⟩ := exists_of_findSome?_eq_some found
      obtain ⟨y, memY, found⟩ := exists_of_findSome?_eq_some found
      dsimp only at found
      split at found
      · next fewer =>
        cases found
        rw [mem_range] at memI memJ memX memY
        exact ⟨i, x, j, y, ⟨distinct, memI, memJ, memX, memY⟩, rfl, fewer⟩
      · cases found

/-- An exchange that is made lowers the number of rematches and seats the same players. -/
theorem improvingSwap_some :
    better.flatten.Perm pods.flatten ∧ totalConflicts history better < totalConflicts history pods := by
  obtain ⟨i, x, j, y, exchange, rfl, fewer⟩ := improvingSwap_exchange found
  refine ⟨swapSeats_perm exchange, ?_⟩
  have total := @sum_swapSeats pods i x j y (podConflicts history) exchange.distinct
    exchange.insideI exchange.insideJ
  unfold totalConflicts
  omega

end

theorem repairLoop_perm (fuel : Nat) (pods : List (List String)) :
    (repairLoop history fuel pods).flatten.Perm pods.flatten := by
  induction fuel generalizing pods with
  | zero => exact .refl _
  | succ fuel ih =>
    rw [repairLoop]
    split
    · exact .refl _
    · next better found => exact (ih better).trans (improvingSwap_some found).1

end

section
variable {round : Nat} {outcome : List String → Option PairingOutcome}

section
variable (id : Nat) (pods : List (List String))
include id pods

theorem numbered_players : (numbered round outcome id pods).map (·.players) = pods := by
  induction pods generalizing id with
  | nil => rfl
  | cons pod pods ih => rw [numbered, map_cons, ih]

theorem length_numbered : (numbered round outcome id pods).length = pods.length := by
  rw [← length_map (f := fun pairing : TournamentPairing => pairing.players), numbered_players]

theorem numbered_flatMap : (numbered round outcome id pods).flatMap (·.players) = pods.flatten := by
  rw [flatMap_def, numbered_players]

theorem numbered_ids : (numbered round outcome id pods).map (·.id) = range' id pods.length := by
  induction pods generalizing id with
  | nil => rfl
  | cons pod pods ih => rw [numbered, map_cons, ih, length_cons, range'_succ]

end

theorem mem_numbered {id : Nat} {pods : List (List String)} {pairing : TournamentPairing}
    (mem : pairing ∈ numbered round outcome id pods) :
    pairing.round = round ∧ pairing.players ∈ pods ∧ pairing.outcome = outcome pairing.players := by
  induction pods generalizing id with
  | nil => cases mem
  | cons pod pods ih =>
    rcases mem_cons.mp mem with rfl | later
    · exact ⟨rfl, mem_cons_self, rfl⟩
    · obtain ⟨isRound, mem, isOutcome⟩ := ih later
      exact ⟨isRound, mem_cons_of_mem _ mem, isOutcome⟩

end

section
variable (order : List String) (arity : MatchArity) (history : List TournamentPairing)
  (round firstId : Nat)

/-- Every player that is to be paired is in one pairing, once, and nobody else is. -/
theorem buildSwissRound_seats :
    ((buildSwissRound order arity history round firstId).flatMap (·.players)).Perm order := by
  have seats := partitionRound_seats order.length arity
  unfold buildSwissRound
  dsimp only
  generalize partitionRound order.length arity = partition at seats
  have takesByes := selectFair_perm order partition.byes (hadBye · history)
  have countByes := selectFair_length order partition.byes (hadBye · history) (by omega)
  generalize selectFair order partition.byes (hadBye · history) = byes at takesByes countByes ⊢
  obtain ⟨byePlayers, pool⟩ := byes
  dsimp only at takesByes countByes
  have rest : pool.length = (partition.sizes arity).sum := by
    have all := takesByes.length_eq
    rw [length_append] at all
    omega
  have takesShort := selectFair_perm pool (partition.shortPods * arity.shortPodSize)
    (hadShortPod · arity history)
  generalize selectFair pool (partition.shortPods * arity.shortPodSize)
    (hadShortPod · arity history) = short at takesShort ⊢
  obtain ⟨shortPlayers, full⟩ := short
  have seated : (greedyAssign history (full ++ shortPlayers) (partition.sizes arity)).flatten.Perm
      pool := by
    have swapped := perm_append_comm.trans takesShort
    exact (greedyAssign_perm history _ _ (by rw [swapped.length_eq, rest])).trans swapped
  rw [flatMap_append, numbered_flatMap, numbered_flatMap, ← flatMap_def, flatMap_singleton']
  refine (Perm.append_right _ ((repairLoop_perm _ _).trans seated)).trans ?_
  exact perm_append_comm.trans takesByes

/-- Numbers from `firstId` on; a pairing is pending, or the bye of its only player. -/
structure Fresh (round firstId : Nat) (generated : List TournamentPairing) : Prop where
  ids : generated.map (·.id) = range' firstId generated.length
  rounds : ∀ pairing ∈ generated, pairing.round = round
  outcomes : ∀ pairing ∈ generated, pairing.outcome = none ∨
    pairing.outcome = some .bye ∧ ∃ key, pairing.players = [key]

theorem buildSwissRound_fresh :
    Fresh round firstId (buildSwissRound order arity history round firstId) := by
  unfold buildSwissRound
  refine ⟨?_, fun pairing mem => ?_, fun pairing mem => ?_⟩
  · rw [map_append, numbered_ids, numbered_ids, length_append,
      length_numbered, length_numbered, range'_append_1]
  · rcases mem_append.mp mem with mem | mem
    · exact (mem_numbered mem).1
    · exact (mem_numbered mem).1
  · rcases mem_append.mp mem with mem | mem
    · exact .inl (mem_numbered mem).2.2
    · obtain ⟨-, mem, isBye⟩ := mem_numbered mem
      obtain ⟨key, -, isKey⟩ := mem_map.mp mem
      exact .inr ⟨isBye, key, isKey.symm⟩

end

section

theorem chunksOfTwo_flatten (keys : List String) : (chunksOfTwo keys).flatten = keys := by
  induction keys using chunksOfTwo.induct with
  | case1 => rfl
  | case2 a => rfl
  | case3 a b rest ih => simp [chunksOfTwo, ih]

theorem length_chunksOfTwo {keys pod : List String} (mem : pod ∈ chunksOfTwo keys) :
    pod.length = 1 ∨ pod.length = 2 := by
  induction keys using chunksOfTwo.induct with
  | case1 => cases mem
  | case2 a =>
    cases mem_singleton.mp mem
    exact .inl rfl
  | case3 a b rest ih =>
    rcases mem_cons.mp mem with rfl | later
    · exact .inr rfl
    · exact ih later

theorem levelWinners_ok {level : List TournamentPairing} {winners : List String}
    (ok : levelWinners level = .ok winners) :
    level.map (·.winner) = winners.map some := by
  induction level generalizing winners with
  | nil =>
    cases ok
    rfl
  | cons pairing level ih =>
    rw [levelWinners] at ok
    split at ok
    · cases ok
    · next winner isWinner =>
      cases rest : levelWinners level with
      | error reason =>
        rw [rest] at ok
        cases ok
      | ok others =>
        rw [rest] at ok
        cases ok
        rw [map_cons, map_cons, isWinner, ih rest]

/-- A bracket of two to eight players seats each of them once. -/
theorem seededPods_spec {order : List String} (least : 2 ≤ order.length)
    (most : order.length ≤ 8) :
    (seededPods order).flatten.Perm order ∧
      ∀ pod ∈ seededPods order, pod.length = 1 ∨ pod.length = 2 := by
  have depths : Nat.clog 2 2 = 1 ∧ Nat.clog 2 3 = 2 ∧ Nat.clog 2 4 = 2 ∧ Nat.clog 2 5 = 3 ∧
      Nat.clog 2 6 = 3 ∧ Nat.clog 2 7 = 3 ∧ Nat.clog 2 8 = 3 := by decide
  rw [perm_iff_count]
  match order, least, most with
  | [a, b], _, _ | [a, b, c], _, _ | [a, b, c, d, e], _, _ =>
    simp [seededPods, depths, range_succ, count_cons]
  | [a, b, c, d], _, _ | [a, b, c, d, e, f], _, _ | [a, b, c, d, e, f, g], _, _
  | [a, b, c, d, e, f, g, h], _, _ =>
    simp [seededPods, depths, range_succ, count_cons]
    omega
  | _ :: _ :: _ :: _ :: _ :: _ :: _ :: _ :: _ :: _, _, most =>
    simp only [length_cons] at most
    omega

theorem buildSingleEliminationRound_ok {order : List String} {history : List TournamentPairing}
    {round firstId : Nat} {generated : List TournamentPairing}
    (ok : buildSingleEliminationRound order history round firstId = .ok generated) :
    ∃ pods, generated = numbered round (fun players => if players.length = 1 then some .bye
        else none) firstId pods ∧
      (∀ pod ∈ pods, pod.length = 1 ∨ pod.length = 2) ∧
      (round ≤ 1 ∧ pods.flatten.Perm order ∨
        1 < round ∧ ∃ winners, pods = chunksOfTwo winners ∧
          (history.filter (·.round = round - 1)).map (·.winner) = winners.map some) := by
  obtain ⟨pods, built, rfl⟩ := map_eq_ok.mp ok
  refine ⟨pods, rfl, ?_⟩
  unfold eliminationPods at built
  split at built
  · next first =>
    split at built
    · next bounds =>
      cases built
      obtain ⟨seats, small⟩ := seededPods_spec bounds.1 bounds.2
      exact ⟨small, .inl ⟨first, seats⟩⟩
    · cases built
  · next later =>
    dsimp only at built
    split at built
    · cases built
    · obtain ⟨winners, isLevel, rfl⟩ := map_eq_ok.mp built
      exact ⟨fun pod => length_chunksOfTwo, .inr ⟨not_le.mp later, winners, rfl,
        levelWinners_ok isLevel⟩⟩

end

end Phase.Tournament
