import Mathlib.Data.List.SplitBy
import Phase.Draft.Standings

/-! A new round never seats a player twice. -/
namespace Phase.Draft.Event
open List

/-- Both players of each pair, pair after pair. -/
def seated (pairs : List (Nat × Nat)) : List Nat := pairs.flatMap fun pair => [pair.1, pair.2]

variable {prior : List (Nat × Nat)} {pool : List Nat} {shuffle : BracketShuffle}
  {session : DraftSession}

theorem pairPool_perm {allowRematch : Bool} {fuel : Nat} {pairs : List (Nat × Nat)}
    (found : pairPoolAvoidingRematches prior allowRematch fuel pool = some pairs) :
    (seated pairs).Perm pool := by
  induction fuel generalizing pool pairs with
  | zero =>
    cases pool with
    | nil =>
      cases found
      exact .refl _
    | cons first candidates => cases found
  | succ fuel ih =>
    cases pool with
    | nil =>
      cases found
      exact .refl _
    | cons first candidates =>
      obtain ⟨i, -, chosen⟩ := exists_of_findSome?_eq_some found
      obtain ⟨partner, isPartner, chosen⟩ := Option.bind_eq_some_iff.mp chosen
      obtain ⟨-, -, chosen⟩ := Option.bind_eq_some_iff.mp chosen
      obtain ⟨rest, isRest, chosen⟩ := Option.bind_eq_some_iff.mp chosen
      cases chosen
      obtain ⟨bound, rfl⟩ := List.getElem?_eq_some_iff.mp isPartner
      have others := ih isRest
      have whole : (candidates[i] :: candidates.eraseIdx i).Perm candidates :=
        getElem_cons_eraseIdx_perm bound
      exact .cons first ((others.cons _).trans whole)

theorem getD_seated_sublist {pairs : Option (List (Nat × Nat))} (nodup : pool.Nodup)
    (found : ∀ found, pairs = some found → (seated found).Perm pool) :
    (seated (pairs.getD [])).Nodup := by
  cases pairs with
  | none => exact .nil
  | some pairs => exact (found pairs rfl).nodup_iff.mpr nodup

theorem pairEven_nodup (nodup : pool.Nodup) : (seated (pairEven prior pool)).Nodup := by
  rw [pairEven]
  split
  · next pairs found => exact (pairPool_perm found).nodup_iff.mpr nodup
  · exact getD_seated_sublist nodup fun _ found => pairPool_perm found

theorem pairOdd_nodup (nodup : pool.Nodup) : (seated (pairOdd prior pool).1).Nodup := by
  rw [pairOdd]
  split
  · next pairs candidate found =>
    obtain ⟨i, -, chosen⟩ := exists_of_findSome?_eq_some found
    obtain ⟨held, -, chosen⟩ := Option.bind_eq_some_iff.mp chosen
    obtain ⟨rest, isRest, chosen⟩ := Option.bind_eq_some_iff.mp chosen
    cases chosen
    exact (pairPool_perm isRest).nodup_iff.mpr (nodup.sublist (eraseIdx_sublist pool i))
  · exact getD_seated_sublist (nodup.sublist (dropLast_sublist pool))
      fun _ found => pairPool_perm found

/-- What the generator does to each bracket is a permutation of it. -/
def Shuffles (shuffle : Nat → BracketShuffle) : Prop :=
  ∀ round i bracket, (shuffle round i bracket).Perm bracket

theorem flatten_shuffled (shuffles : ∀ i b, (shuffle i b).Perm b) (brackets : List (List Standing))
    (k : Nat) :
    ((brackets.zipIdx k).map fun (bracket, i) => shuffle i bracket).flatten.Perm
      brackets.flatten := by
  induction brackets generalizing k with
  | nil => exact .refl _
  | cons bracket brackets ih =>
    exact (shuffles k bracket).append (ih (k + 1))

theorem standingsPool_perm {session : DraftSession} {shuffle : BracketShuffle}
    (shuffles : ∀ i b, (shuffle i b).Perm b) :
    (standingsPool session shuffle).Perm (playerIds session) := by
  have flat := (flatten_shuffled shuffles
    ((standings session).splitBy fun a b => a.wins == b.wins) 0).map (·.player)
  rw [flatten_splitBy] at flat
  refine flat.trans ?_
  have sorted := (perm_insertionSort (fun a b : Standing => b.wins ≤ a.wins)
    ((range session.seats.length).map fun seat =>
      Standing.mk (seatPlayerId session seat)
        (MatchRecords.of session.event.matchRecords (seatPlayerId session seat)).matchWins
        seat)).map (·.player)
  rwa [map_map] at sorted

theorem pairAdjacent_sublist (players : List Nat) :
    (seated (pairAdjacent players)).Sublist players := by
  induction players using pairAdjacent.induct with
  | case1 first second rest ih => exact (ih.cons_cons second).cons_cons first
  | case2 only => exact nil_sublist _
  | case3 => exact .slnil

theorem resultWinner_mem {pairing : DraftPairing} {records : MatchRecords} {winner : Nat}
    (named : ∀ w, pairing.winner = some w → w = pairing.players.1 ∨ w = pairing.players.2)
    (isWinner : resultWinner pairing records = some winner) :
    winner = pairing.players.1 ∨ winner = pairing.players.2 := by
  rw [resultWinner, Option.or_eq_some_iff] at isWinner
  rcases isWinner with stored | ⟨-, inferred⟩
  · exact named winner stored
  · rw [inferWinnerFromRecords] at inferred
    split at inferred
    · cases inferred
    · dsimp only at inferred
      split at inferred
      · cases inferred
        exact .inl rfl
      · split at inferred
        · cases inferred
          exact .inr rfl
        · cases inferred

theorem winners_sublist {pairings : List DraftPairing} {records : MatchRecords}
    (named : ∀ q ∈ pairings, ∀ w, q.winner = some w → w = q.players.1 ∨ w = q.players.2) :
    (pairings.filterMap (resultWinner · records)).Sublist (seated (pairings.map (·.players))) := by
  induction pairings with
  | nil => exact .slnil
  | cons q pairings ih =>
    have rest := ih fun q mem => named q (mem_cons_of_mem _ mem)
    rw [filterMap_cons]
    cases isWinner : resultWinner q records with
    | none => exact rest.trans (sublist_append_right _ _)
    | some winner =>
      have joined (here : [winner].Sublist [q.players.1, q.players.2]) := here.append rest
      refine joined ?_
      rcases resultWinner_mem (named q mem_cons_self) isWinner with rfl | rfl
      · exact (nil_sublist _).cons_cons _
      · exact (Sublist.refl _).cons _

theorem seatPlayerId_inj (distinct : (playerIds session).Nodup) {a b : Nat}
    (boundA : a < session.seats.length) (boundB : b < session.seats.length)
    (same : seatPlayerId session a = seatPlayerId session b) : a = b :=
  inj_on_of_nodup_map distinct (mem_range.mpr boundA) (mem_range.mpr boundB) same

/-- Highest seed against lowest, inward: every seat once. -/
theorem seeds_nodup (n : Nat) : (seated ((range (n / 2)).map fun i => (i, n - 1 - i))).Nodup := by
  rw [seated, flatMap_map, nodup_flatMap]
  refine ⟨fun i mem => ?_, ?_⟩
  · have := mem_range.mp mem
    simp
    omega
  · refine nodup_range.pairwise_of_forall_ne fun i memI j memJ differ => ?_
    have := mem_range.mp memI
    have := mem_range.mp memJ
    simp only [Function.onFun, disjoint_cons_left, disjoint_nil_left, mem_cons,
      not_mem_nil, or_false, and_true]
    omega

section
variable (round : Nat) (pairs : List (Nat × Nat))

theorem newPairings_players : (newPairings round pairs).map (·.players) = pairs := by
  rw [newPairings, map_map]
  exact zipIdx_map_fst 0 pairs

theorem newPairings_mem {q : DraftPairing} (mem : q ∈ newPairings round pairs) :
    q.round = round ∧ q.status = .pending ∧ q.winner = none := by
  obtain ⟨⟨players, table⟩, -, rfl⟩ := mem_map.mp mem
  exact ⟨rfl, rfl, rfl⟩

end

theorem seated_map_nodup {f : Nat → Nat} {pairs : List (Nat × Nat)}
    (inj : ∀ a ∈ seated pairs, ∀ b ∈ seated pairs, f a = f b → a = b)
    (nodup : (seated pairs).Nodup) :
    (seated (pairs.map fun pair => (f pair.1, f pair.2))).Nodup := by
  have same : seated (pairs.map fun pair => (f pair.1, f pair.2)) = (seated pairs).map f := by
    rw [seated, seated, flatMap_map, map_flatMap]
    rfl
  rw [same]
  exact nodup.map_on inj

theorem firstRound_nodup (distinct : (playerIds session).Nodup) :
    (seated ((range (podSizeOf session / 2)).map fun i =>
      (seatPlayerId session i, seatPlayerId session (podSizeOf session - 1 - i)))).Nodup := by
  have small : podSizeOf session ≤ session.seats.length := Nat.mod_le _ _
  have bound : ∀ a ∈ seated ((range (podSizeOf session / 2)).map fun i =>
      (i, podSizeOf session - 1 - i)), a < session.seats.length := by
    intro a mem
    rw [seated, flatMap_map, mem_flatMap] at mem
    obtain ⟨i, memI, isA⟩ := mem
    have := mem_range.mp memI
    simp only [mem_cons, not_mem_nil, or_false] at isA
    omega
  have nodup := @seated_map_nodup (seatPlayerId session) _
    (fun a memA b memB => seatPlayerId_inj distinct (bound a memA) (bound b memB))
    (seeds_nodup (podSizeOf session))
  rwa [map_map] at nodup

/-- Every new round is a list of disjoint pairs, still to be played. -/
theorem roundPairings_spec {shuffle : Nat → BracketShuffle} (shuffles : Shuffles shuffle)
    (distinct : (playerIds session).Nodup)
    (named : ∀ q ∈ session.event.pairings, ∀ w, q.winner = some w →
      w = q.players.1 ∨ w = q.players.2) (apart : ∀ round,
      (seated ((roundPairingsOf session.event.pairings round).map (·.players))).Nodup) :
    ∃ pairs, (roundPairings session shuffle).1 = newPairings (nextPairingRound session) pairs ∧
      (seated pairs).Nodup := by
  rw [roundPairings]
  split
  · have pool : (standingsPool session (shuffle (nextPairingRound session))).Nodup :=
      (standingsPool_perm (shuffles _)).nodup_iff.mpr distinct
    rw [generateSwissPairings]
    split
    · exact ⟨_, rfl, pairEven_nodup pool⟩
    · exact ⟨_, rfl, pairOdd_nodup pool⟩
  · rw [generateSePairings]
    split
    · exact ⟨_, rfl, firstRound_nodup distinct⟩
    · refine ⟨_, rfl, ?_⟩
      have previous : (session.event.pairings.filter fun pairing =>
          pairing.round = nextPairingRound session - 1 ∧ pairing.status = .complete).Sublist
          (roundPairingsOf session.event.pairings (nextPairingRound session - 1)) := by
        refine monotone_filter_right _ fun q both => ?_
        simp only [decide_eq_true_eq] at both ⊢
        exact both.1
      refine (apart (nextPairingRound session - 1)).sublist
        (((pairAdjacent_sublist _).trans (winners_sublist fun q mem =>
          named q (mem_of_mem_filter mem))).trans ?_)
      exact (previous.map _).flatMap fun _ => [_, _]

end Phase.Draft.Event
