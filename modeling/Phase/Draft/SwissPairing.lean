import Phase.Draft.StandingsRun
import Phase.Lib.Indexed
import Phase.Lib.Searching

/-! The search for a round without rematches is exhaustive, so a rematch is played only when
every pairing of the field has one. -/
namespace Phase.Draft.Event
open Searching List

/-- Everyone in the pool meets one other player, and no pair has met. -/
structure RematchFree (prior : List (Nat × Nat)) (pool : List Nat) (pairs : List (Nat × Nat)) :
    Prop where
  seats : (seated pairs).Perm pool
  apart : ∀ pair ∈ pairs, pair ∉ prior

def Pairable (prior : List (Nat × Nat)) (pool : List Nat) : Prop :=
  ∃ pairs, RematchFree prior pool pairs

theorem length_seated (pairs : List (Nat × Nat)) : (seated pairs).length = 2 * pairs.length := by
  induction pairs with
  | nil => rfl
  | cons pair pairs ih =>
    rw [seated, flatMap_cons, length_append, ← seated]
    simp only [length_cons, length_nil]
    omega

section
variable {prior : List (Nat × Nat)} {allowRematch : Bool}

variable {pool : List Nat} {pairs : List (Nat × Nat)}

theorem pairPool_apart {fuel : Nat}
    (found : pairPoolAvoidingRematches prior allowRematch fuel pool = some pairs) :
    ∀ pair ∈ pairs, allowRematch ∨ pair ∉ prior := by
  induction fuel generalizing pool pairs with
  | zero =>
    cases pool with
    | nil =>
      cases found
      exact fun _ mem => nomatch mem
    | cons first candidates => cases found
  | succ fuel ih =>
    cases pool with
    | nil =>
      cases found
      exact fun _ mem => nomatch mem
    | cons first candidates =>
      obtain ⟨i, -, chosen⟩ := exists_of_findSome?_eq_some found
      obtain ⟨partner, -, chosen⟩ := Option.bind_eq_some_iff.mp chosen
      obtain ⟨_, allowed, chosen⟩ := Option.bind_eq_some_iff.mp chosen
      obtain ⟨rest, isRest, chosen⟩ := Option.bind_eq_some_iff.mp chosen
      cases chosen
      intro pair mem
      rcases mem_cons.mp mem with rfl | later
      · exact (Option.guard_eq_some' _).mp allowed
      · exact ih isRest pair later

/-- The partner of the first player of a pool in a pairing of it, and the pairs of the rest. -/
theorem partner_of_first {first : Nat} {candidates : List Nat}
    (seats : (seated pairs).Perm (first :: candidates)) :
    ∃ partner others, ((first, partner) ∈ pairs ∨ (partner, first) ∈ pairs) ∧
      others ⊆ pairs ∧ (partner :: seated others).Perm candidates := by
  obtain ⟨pair, mem, isFirst⟩ := mem_flatMap.mp (seats.mem_iff.mpr mem_cons_self)
  obtain ⟨before, after, rfl⟩ := append_of_mem mem
  have split : (seated (before ++ pair :: after)).Perm
      (pair.1 :: pair.2 :: seated (before ++ after)) := by
    simp only [seated, flatMap_append, flatMap_cons]
    exact perm_append_comm_assoc _ _ _
  have rest : before ++ after ⊆ before ++ pair :: after :=
    (Sublist.append_left (sublist_cons_self _ _) _).subset
  obtain ⟨a, b⟩ := pair
  simp only [mem_cons, not_mem_nil, or_false] at isFirst
  rcases isFirst with rfl | rfl
  · exact ⟨b, before ++ after, .inl mem, rest, (split.symm.trans seats).cons_inv⟩
  · exact ⟨a, before ++ after, .inr mem, rest,
      ((Perm.swap _ _ _).trans (split.symm.trans seats)).cons_inv⟩

/-- A dead end is left by trying the next partner, so a pairing that exists is found. -/
theorem pairPool_complete (symmetric : ∀ a b, (a, b) ∈ prior → (b, a) ∈ prior) {fuel : Nat}
    (enough : pool.length ≤ fuel) (seats : (seated pairs).Perm pool)
    (allowed : ∀ pair ∈ pairs, allowRematch ∨ pair ∉ prior) :
    (pairPoolAvoidingRematches prior allowRematch fuel pool).isSome := by
  induction fuel generalizing pool pairs with
  | zero =>
    rw [length_eq_zero_iff.mp (Nat.le_zero.mp enough)]
    rfl
  | succ fuel ih =>
    cases pool with
    | nil =>
      rfl
    | cons first candidates =>
      obtain ⟨partner, others, met, fewer, rest⟩ := partner_of_first seats
      obtain ⟨i, bound, rfl⟩ := getElem_of_mem (rest.mem_iff.mp mem_cons_self)
      have free : allowRematch ∨ (first, candidates[i]) ∉ prior := by
        rcases met with mem | mem
        · exact allowed _ mem
        · exact (allowed _ mem).imp_right fun fresh again => fresh (symmetric _ _ again)
      have shorter : (candidates.eraseIdx i).length ≤ fuel := by
        rw [length_eraseIdx_of_lt bound]
        simp only [length_cons] at enough
        omega
      have left := ih shorter (rest.trans (getElem_cons_eraseIdx_perm bound).symm).cons_inv
        fun pair mem => allowed pair (fewer mem)
      obtain ⟨found, isFound⟩ := Option.isSome_iff_exists.mp left
      refine findSome?_isSome_iff.mpr ⟨i, mem_range.mpr bound, ?_⟩
      simp [getElem?_eq_getElem bound, free, isFound, guard]

theorem pairPool_isSome_iff (symmetric : ∀ a b, (a, b) ∈ prior → (b, a) ∈ prior) (pool : List Nat) :
    (pairPoolAvoidingRematches prior false pool.length pool).isSome ↔ Pairable prior pool := by
  constructor
  · intro some_
    obtain ⟨pairs, found⟩ := Option.isSome_iff_exists.mp some_
    exact ⟨pairs, pairPool_perm found, fun pair mem =>
      (pairPool_apart found pair mem).resolve_left Bool.false_ne_true⟩
  · rintro ⟨pairs, seats, apart⟩
    exact pairPool_complete symmetric (Nat.le_refl _) seats fun pair mem => .inr (apart pair mem)

theorem pairAdjacent_even {players : List Nat} (even : players.length % 2 = 0) :
    seated (pairAdjacent players) = players := by
  induction players using pairAdjacent.induct with
  | case1 first second rest ih =>
    have fewer : rest.length % 2 = 0 := by
      simp only [length_cons] at even
      omega
    rw [pairAdjacent, seated, flatMap_cons, ← seated, ih fewer]
    rfl
  | case2 only => cases even
  | case3 => rfl

/-- With rematches allowed an even pool can always be paired. -/
theorem pairPool_admitting (symmetric : ∀ a b, (a, b) ∈ prior → (b, a) ∈ prior)
    (even : pool.length % 2 = 0) :
    (seated ((pairPoolAvoidingRematches prior true pool.length pool).getD [])).Perm pool := by
  obtain ⟨pairs, found⟩ := Option.isSome_iff_exists.mp <|
    pairPool_complete symmetric (Nat.le_refl _)
      (.of_eq (pairAdjacent_even even)) fun _ _ => .inl rfl
  rw [found]
  exact pairPool_perm found

end

section
variable {prior : List (Nat × Nat)}

variable {pool : List Nat}

/-- A field of one parity leaves out nobody, one of the other parity one player. -/
theorem parity_of_seats {pairs : List (Nat × Nat)} {bye : Option Nat}
    (seats : (seated pairs ++ bye.toList).Perm pool) : bye.isSome ↔ pool.length % 2 = 1 := by
  have sizes := seats.length_eq
  rw [length_append, length_seated] at sizes
  cases bye with
  | none =>
    simp only [Option.toList_none, length_nil] at sizes
    simp only [Option.isSome_none, Bool.false_eq_true, false_iff]
    omega
  | some _ =>
    simp only [Option.toList_some, length_singleton] at sizes
    simp only [Option.isSome_some, true_iff]
    omega

/-- Who is left out, and that everyone else is paired, without a rematch if it can be done. -/
structure Paired (prior : List (Nat × Nat)) (pool : List Nat) (pairs : List (Nat × Nat))
    (bye : Option Nat) : Prop where
  everyone : (seated pairs ++ bye.toList).Perm pool
  rematch : ∀ pair ∈ pairs, pair ∈ prior → ∀ (others : List (Nat × Nat)) (left : Option Nat),
    (seated others ++ left.toList).Perm pool → ∃ again ∈ others, again ∈ prior
  lowest : ∀ candidate, bye = some candidate → ∃ above below, pool = above ++ candidate :: below ∧
      (∀ between other after, below = between ++ other :: after →
        ¬ Pairable prior (above ++ candidate :: between ++ after)) ∧
      (Pairable prior (above ++ below) ∨ below = [] ∧ ¬ Pairable prior above)

theorem pairEven_paired (symmetric : ∀ a b, (a, b) ∈ prior → (b, a) ∈ prior)
    (even : pool.length % 2 = 0) : Paired prior pool (pairEven prior pool) none := by
  have exact_ := pairPool_isSome_iff symmetric pool
  rw [pairEven]
  cases found : pairPoolAvoidingRematches prior false pool.length pool with
  | some pairs =>
    have free := pairPool_apart found
    refine ⟨by simpa using pairPool_perm found, fun pair mem met => ?_,
      fun _ out => by cases out⟩
    exact absurd met ((free pair mem).resolve_left Bool.false_ne_true)
  | none =>
    rw [found] at exact_
    refine ⟨by simpa using pairPool_admitting symmetric even, fun _ _ _ others left seats => ?_,
      fun _ out => by cases out⟩
    have none_ : left = none := by
      have parity := parity_of_seats seats
      cases left with
      | none => rfl
      | some _ => exact absurd (parity.mp rfl) (by omega)
    rw [none_, Option.toList_none, append_nil] at seats
    by_contra fresh
    push Not at fresh
    exact absurd (exact_.mpr ⟨others, seats, fresh⟩) (by simp)

theorem pairOdd_paired (symmetric : ∀ a b, (a, b) ∈ prior → (b, a) ∈ prior)
    (odd : pool.length % 2 = 1) :
    Paired prior pool (pairOdd prior pool).1 (pairOdd prior pool).2 := by
  -- A place is passed over only if the rest cannot be paired.
  have passed : ∀ before other after, pool = before ++ other :: after → (do
      let candidate ← pool[before.length]?
      let rest := pool.eraseIdx before.length
      let pairs ← pairPoolAvoidingRematches prior false rest.length rest
      pure (pairs, candidate)) = none → ¬ Pairable prior (before ++ after) := by
    rintro before other after rfl fails pairable
    obtain ⟨pairs, found⟩ :=
      Option.isSome_iff_exists.mp ((pairPool_isSome_iff symmetric _).mpr pairable)
    rw [length_append] at found
    simp [found] at fails
  rw [pairOdd]
  split
  · next pairs candidate found =>
    obtain ⟨i, bound, here, later⟩ := findSome?_range_reverse_eq_some.mp found
    obtain ⟨held, isHeld, here⟩ := Option.bind_eq_some_iff.mp here
    obtain ⟨rest, isRest, here⟩ := Option.bind_eq_some_iff.mp here
    cases here
    obtain ⟨_, isHeld⟩ := List.getElem?_eq_some_iff.mp isHeld
    have split : pool = pool.take i ++ candidate :: pool.drop (i + 1) := by
      rw [← isHeld, ← drop_eq_getElem_cons bound, take_append_drop]
    have size : (pool.take i).length = i := length_take_of_le bound.le
    have erased : pool.eraseIdx i = pool.take i ++ pool.drop (i + 1) :=
      eraseIdx_eq_take_drop_succ pool i
    have seats := pairPool_perm isRest
    have free := pairPool_apart isRest
    rw [erased] at seats
    refine ⟨?_, fun pair mem met => ?_, ?_⟩
    · rw [split]
      exact (seats.append_right _).trans (perm_append_singleton _ _ |>.trans perm_middle.symm)
    · exact absurd met ((free pair mem).resolve_left Bool.false_ne_true)
    · rintro _ ⟨⟩
      refine ⟨_, _, split, fun between other after isBelow => ?_,
        .inl ⟨pairs, seats, fun pair mem =>
          (free pair mem).resolve_left Bool.false_ne_true⟩⟩
      have whole : pool = (pool.take i ++ candidate :: between) ++ other :: after := by
        rw [append_assoc, cons_append, ← isBelow]
        exact split
      have place : (pool.take i ++ candidate :: between).length < pool.length := by
        have := congrArg length whole
        rw [length_append, length_cons] at this
        omega
      have := passed _ _ _ whole (later _ (by
        rw [length_append, length_cons]
        omega) place)
      exact this
  · next found =>
    have fails : ∀ before other after, pool = before ++ other :: after →
        ¬ Pairable prior (before ++ after) := by
      intro before other after split
      refine passed before other after split (findSome?_eq_none_iff.mp found _ ?_)
      rw [split]
      simp
    obtain ⟨above, last, isPool⟩ := eq_nil_or_concat' pool |>.resolve_left (by
      rintro rfl
      cases odd)
    rw [isPool, dropLast_concat, getLast?_concat]
    have even : above.length % 2 = 0 := by
      rw [isPool, length_append, length_singleton] at odd
      omega
    refine ⟨(pairPool_admitting symmetric even).append_right _,
      fun _ _ _ others left seats => ?_, ?_⟩
    · rw [← isPool] at seats
      obtain ⟨bye, rfl⟩ := Option.isSome_iff_exists.mp ((parity_of_seats seats).mpr odd)
      obtain ⟨before, after, split⟩ := append_of_mem
        (seats.mem_iff.mp (mem_append_right (seated others) (mem_singleton_self bye)))
      by_contra fresh
      push Not at fresh
      refine fails before bye after split ⟨others, ?_, fresh⟩
      rw [split] at seats
      exact ((perm_append_singleton _ _).symm.trans (seats.trans perm_middle)).cons_inv
    · rintro _ ⟨⟩
      have alone := fails above last [] isPool
      rw [append_nil] at alone
      refine ⟨above, [], rfl, fun between other after none_ => ?_, .inr ⟨rfl, alone⟩⟩
      simp at none_

end

theorem priorPairs_symmetric (session : DraftSession) (a b : Nat)
    (met : (a, b) ∈ priorPairs session) : (b, a) ∈ priorPairs session := by
  obtain ⟨pairing, mem, here⟩ := mem_flatMap.mp met
  refine mem_flatMap.mpr ⟨pairing, mem, ?_⟩
  simp only [mem_cons, not_mem_nil, or_false] at here ⊢
  rcases here with same | same
  · exact .inr (by rw [← same]; rfl)
  · exact .inl (by rw [← Prod.swap_swap pairing.players, ← same]; rfl)

def winsOf (session : DraftSession) (player : Nat) : Nat :=
  (MatchRecords.of session.event.matchRecords player).matchWins

variable {session : DraftSession} {shuffle : BracketShuffle}

theorem standings_wins {standing : Standing} (mem : standing ∈ standings session) :
    standing.wins = winsOf session standing.player := by
  obtain ⟨seat, -, rfl⟩ := mem_map.mp ((mem_insertionSort _).mp mem)
  rfl

theorem standings_sorted (session : DraftSession) :
    (standings session).Pairwise fun a b => b.wins ≤ a.wins := by
  exact pairwise_insertionSort _ _

theorem bracket_wins {bracket : List Standing}
    (mem : bracket ∈ (standings session).splitBy fun a b => a.wins == b.wins) :
    ∀ a ∈ bracket, ∀ b ∈ bracket, a.wins = b.wins := by
  have chain : bracket.IsChain fun a b => a.wins = b.wins :=
    (isChain_of_mem_splitBy mem).imp fun _ _ same => beq_iff_eq.mp same
  exact fun a memA b memB => Pairwise.forall_of_forall (R := fun a b => a.wins = b.wins)
    (fun _ _ => rfl) (isChain_iff_pairwise.mp chain) memA memB

theorem shuffled_sorted (shuffles : ∀ i b, (shuffle i b).Perm b) {brackets : List (List Standing)}
    (k : Nat) (even : ∀ bracket ∈ brackets, ∀ a ∈ bracket, ∀ b ∈ bracket, a.wins = b.wins)
    (sorted : brackets.flatten.Pairwise fun a b => b.wins ≤ a.wins) :
    ((brackets.zipIdx k).map fun (bracket, i) => shuffle i bracket).flatten.Pairwise
      fun a b => b.wins ≤ a.wins := by
  induction brackets generalizing k with
  | nil => exact .nil
  | cons bracket brackets ih =>
    rw [flatten_cons, pairwise_append] at sorted
    rw [zipIdx_cons, map_cons, flatten_cons, pairwise_append]
    obtain ⟨-, later, across⟩ := sorted
    refine ⟨pairwise_of_forall_mem_list fun a memA b memB => ?_,
      ih (k + 1) (fun bracket mem => even bracket (mem_cons_of_mem _ mem)) later,
      fun a memA b memB => ?_⟩
    · exact (even bracket mem_cons_self b ((shuffles k bracket).mem_iff.mp memB) a
        ((shuffles k bracket).mem_iff.mp memA)).le
    · exact across a ((shuffles k bracket).mem_iff.mp memA) b
        ((flatten_shuffled shuffles brackets (k + 1)).mem_iff.mp memB)

/-- Shuffling inside the brackets keeps a player with more wins ahead. -/
theorem standingsPool_sorted (shuffles : ∀ i b, (shuffle i b).Perm b) :
    (standingsPool session shuffle).Pairwise fun a b => winsOf session b ≤ winsOf session a := by
  have sorted := standings_sorted session
  rw [← flatten_splitBy (fun a b => a.wins == b.wins) (standings session)] at sorted
  have shuffled := shuffled_sorted shuffles 0 (fun _ mem => bracket_wins mem) sorted
  rw [standingsPool, pairwise_map]
  refine shuffled.imp_of_mem fun memA memB fewer => ?_
  have held := flatten_shuffled shuffles ((standings session).splitBy fun a b => a.wins == b.wins) 0
  rw [flatten_splitBy] at held
  rwa [← standings_wins (held.mem_iff.mp memA), ← standings_wins (held.mem_iff.mp memB)]

/-- The search is exhaustive, so a generated round has a rematch only if every pairing of the
field has one, and the bye goes as far down the standings as a round without rematches lets
it. -/
theorem swiss_round_avoids_rematches (session : DraftSession) (round : Nat)
    (shuffle : BracketShuffle) (shuffles : ∀ i b, (shuffle i b).Perm b) :
    (∀ prior : List (Nat × Nat), (∀ a b, (a, b) ∈ prior → (b, a) ∈ prior) → ∀ pool,
      (pairPoolAvoidingRematches prior false pool.length pool).isSome ↔ Pairable prior pool) ∧
    ((standingsPool session shuffle).Perm (playerIds session) ∧
      (standingsPool session shuffle).Pairwise fun a b => winsOf session b ≤ winsOf session a) ∧
    Paired (priorPairs session) (standingsPool session shuffle)
      ((generateSwissPairings session round shuffle).1.map (·.players))
      (generateSwissPairings session round shuffle).2 ∧
    ((generateSwissPairings session round shuffle).2.isSome ↔
      (playerIds session).length % 2 = 1) := by
  have symmetric := priorPairs_symmetric session
  have field := @standingsPool_perm session shuffle shuffles
  have paired : Paired (priorPairs session) (standingsPool session shuffle)
      ((generateSwissPairings session round shuffle).1.map (·.players))
      (generateSwissPairings session round shuffle).2 := by
    rw [generateSwissPairings]
    dsimp only
    split
    · next even =>
      rw [newPairings_players]
      exact pairEven_paired symmetric even
    · next odd =>
      rw [newPairings_players]
      exact pairOdd_paired symmetric (Nat.mod_two_ne_zero.mp odd)
  refine ⟨fun prior symmetric => pairPool_isSome_iff symmetric,
    ⟨field, standingsPool_sorted shuffles⟩, paired, ?_⟩
  rw [← field.length_eq]
  exact parity_of_seats paired.everyone

def threePlayers : DraftSession :=
  { twoPlayers with seats := [.human 0 "First", .human 1 "Second", .human 2 "Third"] }

/-- Three players never get a round in which all of them play. -/
theorem three_players_leave_one : (generateSwissPairings threePlayers 1 (unshuffled 1)).2.isSome :=
  (swiss_round_avoids_rematches threePlayers 1 (unshuffled 1) fun _ _ => .refl _).2.2.2.mpr
    (by decide)

end Phase.Draft.Event
