import Phase.Tournament.Seating

/-! The byes of a Swiss round go round, its pods have the sizes of the partition, and no
exchange between two pods would save a rematch. -/
namespace Phase.Tournament
open Indexed Searching List

section
variable {pool : List String} {count : Nat} {already : String → Bool}

/-- What is left out of the first entries of a list comes after all of them, and they are as
many as were asked for. -/
theorem after_take {α : Type*} {R : α → α → Prop} {xs : List α} (sorted : xs.Pairwise R)
    {k : Nat} {x y : α} (mem : x ∈ xs) (out : x ∉ xs.take k) :
    (y ∈ xs.take k → R y x) ∧ (xs.take k).length = k := by
  rw [← take_append_drop k xs] at mem sorted
  have later := (mem_append.mp mem).resolve_left out
  refine ⟨fun first => (pairwise_append.mp sorted).2.2 y first x later, ?_⟩
  have size := length_pos_of_mem later
  rw [length_drop] at size
  exact length_take_of_le (by omega)

/-- A place that is passed over stands above every chosen one of its kind, and a fresh one is
passed over for fresh ones only. -/
theorem fairIndices_order {i j : Nat} (bound : i < pool.length)
    (out : i ∉ fairIndices pool count already) (chosen : j ∈ fairIndices pool count already) :
    (already (pool.getD i "") = false → already (pool.getD j "") = false) ∧
      (already (pool.getD i "") = already (pool.getD j "") → i < j) := by
  unfold fairIndices at out chosen
  dsimp only at out chosen
  have downward : ((range pool.length).reverse).Pairwise fun a b => b < a :=
    pairwise_reverse.mpr pairwise_lt_range
  have inside : i ∈ (range pool.length).reverse := by simpa using bound
  generalize (range pool.length).reverse = upward at out chosen downward inside
  have freshDown := downward.filter fun index => !already (pool.getD index "")
  generalize isFresh : upward.filter (fun index => !already (pool.getD index "")) = fresh
    at out chosen freshDown
  rw [mem_append, not_or] at out
  obtain ⟨outFresh, outRest⟩ := out
  have isChosen : ∀ place ∈ fresh.take count, already (pool.getD place "") = false := by
    intro place mem
    have mem := mem_of_mem_take mem
    rw [← isFresh, mem_filter] at mem
    simpa using mem.2
  cases had : already (pool.getD i "") with
  | false =>
    have mem : i ∈ fresh := by
      rw [← isFresh, mem_filter]
      exact ⟨inside, by simpa using had⟩
    obtain ⟨before, full⟩ := after_take (y := j) freshDown mem outFresh
    rw [full, Nat.sub_self, take_zero, append_nil] at chosen
    exact ⟨fun _ => isChosen j chosen, fun _ => before chosen⟩
  | true =>
    refine ⟨nofun, fun same => ?_⟩
    have mem : i ∈ upward.filter fun index => !(fresh.take count).contains index :=
      mem_filter.mpr ⟨inside, by simpa using outFresh⟩
    have last := (mem_append.mp chosen).resolve_left fun mem => by
      rw [isChosen j mem] at same
      cases same
    exact (after_take (downward.filter _) mem outRest).1 last

/-- Those chosen from a list and those left: a player who has had it before is chosen only if
everyone left has, and of two alike the lower one is chosen. -/
structure FairChoice (pool : List String) (already : String → Bool)
    (chosen left : List String) : Prop where
  all : (chosen ++ left).Perm pool
  freshFirst : ∀ x ∈ left, already x = false → ∀ y ∈ chosen, already y = false
  lowest : ∀ x ∈ left, ∀ y ∈ chosen, already x = already y → [x, y].Sublist pool

theorem pair_sublist {xs : List String} {i j : Nat} {x y : String} (before : i < j)
    (isX : xs[i]? = some x) (isY : xs[j]? = some y) : [x, y].Sublist xs := by
  obtain ⟨boundX, rfl⟩ := List.getElem?_eq_some_iff.mp isX
  obtain ⟨boundY, rfl⟩ := List.getElem?_eq_some_iff.mp isY
  have first : xs[i] ∈ xs.take (i + 1) :=
    mem_take_iff_getElem.mpr ⟨i, by omega, rfl⟩
  have second : xs[j] ∈ xs.drop (i + 1) :=
    mem_drop_iff_getElem.mpr ⟨j - (i + 1), by omega, by congr 1; omega⟩
  have joined := (singleton_sublist.mpr first).append (singleton_sublist.mpr second)
  rwa [take_append_drop] at joined

theorem selectFair_fair (pool : List String) (count : Nat) (already : String → Bool) :
    FairChoice pool already (selectFair pool count already).1
      (selectFair pool count already).2 := by
  have placed : ∀ x ∈ (selectFair pool count already).2, ∀ y ∈ (selectFair pool count already).1,
      ∃ i j : Nat, pool[i]? = some x ∧ pool[j]? = some y ∧
        (already x = false → already y = false) ∧ (already x = already y → i < j) := by
    intro x memX y memY
    simp only [selectFair, partition_eq_filter_filter] at memX memY
    obtain ⟨⟨_, i⟩, left, rfl⟩ := mem_map.mp memX
    obtain ⟨⟨_, j⟩, picked, rfl⟩ := mem_map.mp memY
    obtain ⟨atI, out⟩ := mem_filter.mp left
    obtain ⟨atJ, chosen⟩ := mem_filter.mp picked
    rw [mk_mem_zipIdx_iff_getElem?] at atI atJ
    have order := fairIndices_order (List.getElem?_eq_some_iff.mp atI).1 (by simpa using out)
      (by simpa using chosen)
    rw [getD_eq_getElem?_getD, atI, getD_eq_getElem?_getD, atJ] at order
    exact ⟨i, j, atI, atJ, order⟩
  refine ⟨selectFair_perm pool count already, fun x memX had y memY => ?_,
    fun x memX y memY same => ?_⟩
  · obtain ⟨_, _, -, -, fresh, -⟩ := placed x memX y memY
    exact fresh had
  · obtain ⟨i, j, isX, isY, -, above⟩ := placed x memX y memY
    exact pair_sublist (above same) isX isY

end

section
variable {history : List TournamentPairing}

theorem fillPod_size {size : Nat} {pod remaining : List String}
    (enough : size ≤ remaining.length) :
    (fillPod history size pod remaining).1.length = pod.length + size := by
  have total := (fillPod_perm history size pod remaining).length_eq
  rw [length_append, length_append] at total
  have left := fillPod_length history size pod remaining enough
  omega

theorem greedyAssign_sizes {sizes : List Nat} {remaining : List String}
    (all : sizes.sum = remaining.length) :
    (greedyAssign history remaining sizes).map (·.length) = sizes := by
  induction sizes generalizing remaining with
  | nil => rfl
  | cons size sizes ih =>
    rw [sum_cons] at all
    have enough : size ≤ remaining.length := by omega
    have left := fillPod_length history size [] remaining enough
    rw [greedyAssign, map_cons, ih (by omega), fillPod_size enough]
    simp

theorem map_set_same {α β : Type*} {f : α → β} {xs : List α} {i : Nat} {a : α}
    (same : ∀ bound : i < xs.length, f a = f xs[i]) : (xs.set i a).map f = xs.map f := by
  by_cases bound : i < xs.length
  · have within : i < (xs.map f).length := by simpa using bound
    have held : f a = (xs.map f)[i] := by rw [same bound, getElem_map]
    rw [map_set, held, set_getElem_self]
  · rw [set_eq_of_length_le (not_lt.mp bound)]

theorem swapSeats_sizes {pods : List (List String)} {i x j y : Nat} (distinct : i ≠ j) :
    (swapSeats pods i x j y).map (·.length) = pods.map (·.length) := by
  unfold swapSeats
  rw [map_set_same, map_set_same]
  · intro bound
    rw [length_set, getD_eq_getElem _ _ bound]
  · intro bound
    have inside : j < pods.length := by simpa using bound
    rw [length_set, getElem_set_ne distinct]
    exact congrArg length (getD_eq_getElem _ _ inside)

theorem repairLoop_sizes (fuel : Nat) (pods : List (List String)) :
    (repairLoop history fuel pods).map (·.length) = pods.map (·.length) := by
  induction fuel generalizing pods with
  | zero => rfl
  | succ fuel ih =>
    rw [repairLoop]
    split
    · rfl
    · next better found =>
      obtain ⟨i, x, j, y, exchange, rfl, -⟩ := improvingSwap_exchange found
      rw [ih, swapSeats_sizes exchange.distinct]

end

section
variable {history : List TournamentPairing}

/-- The repair loop, left at pods that no exchange improves. -/
inductive Repairs (history : List TournamentPairing) :
    List (List String) → List (List String) → Prop
  | done {pods : List (List String)} (none_ : improvingSwap history pods = none) :
      Repairs history pods pods
  | again {pods better repaired : List (List String)}
      (found : improvingSwap history pods = some better) (rest : Repairs history better repaired) :
      Repairs history pods repaired

/-- Each repetition saves a rematch, so the loop ends. -/
theorem repairs_end (pods : List (List String)) :
    Repairs history pods (repairRematches history pods) := by
  suffices ∀ fuel pods, totalConflicts history pods ≤ fuel →
      Repairs history pods (repairLoop history fuel pods) from this _ _ (Nat.le_refl _)
  intro fuel
  induction fuel with
  | zero =>
    intro pods bound
    cases found : improvingSwap history pods with
    | none => exact .done found
    | some better => exact absurd (improvingSwap_some found).2 (by omega)
  | succ fuel ih =>
    intro pods bound
    rw [repairLoop]
    split
    · exact .done ‹_›
    · next better found =>
      have fewer := (improvingSwap_some found).2
      exact .again found (ih better (by omega))

theorem Repairs.stuck {pods repaired : List (List String)} (run : Repairs history pods repaired) :
    improvingSwap history repaired = none := by
  induction run with
  | done none_ => exact none_
  | again _ _ ih => exact ih

variable {pods : List (List String)} {i x j y : Nat}

theorem swapSeats_comm (distinct : i ≠ j) : swapSeats pods j y i x = swapSeats pods i x j y := by
  exact set_comm _ _ distinct.symm

/-- The search tries every exchange with a pod that holds a rematch. -/
theorem not_improving (none_ : improvingSwap history pods = none)
    (exchange : Exchange pods i x j y) (rematch : podConflicts history (pods.getD i []) ≠ 0) :
    podConflicts history (pods.getD i []) + podConflicts history (pods.getD j []) ≤
      podConflicts history ((swapSeats pods i x j y).getD i []) +
        podConflicts history ((swapSeats pods i x j y).getD j []) := by
  obtain ⟨distinct, insideI, insideJ, seatX, seatY⟩ := exchange
  have none_ := findSome?_range_eq_none.mp none_ i insideI
  rw [if_neg rematch] at none_
  have none_ := findSome?_range_eq_none.mp none_ j insideJ
  rw [if_neg distinct] at none_
  have none_ := findSome?_range_eq_none.mp (findSome?_range_eq_none.mp none_ x seatX) y seatY
  dsimp only at none_
  split at none_
  · cases none_
  · omega

/-- Once the loop ends no exchange of two players saves a rematch in the round. -/
theorem no_exchange_saves (none_ : improvingSwap history pods = none)
    (exchange : Exchange pods i x j y) :
    totalConflicts history pods ≤ totalConflicts history (swapSeats pods i x j y) := by
  have total := @sum_swapSeats pods i x j y (podConflicts history) exchange.distinct
    exchange.insideI exchange.insideJ
  have inTwo : podConflicts history (pods.getD i []) + podConflicts history (pods.getD j []) ≤
      podConflicts history ((swapSeats pods i x j y).getD i []) +
        podConflicts history ((swapSeats pods i x j y).getD j []) := by
    by_cases clearI : podConflicts history (pods.getD i []) = 0
    · by_cases clearJ : podConflicts history (pods.getD j []) = 0
      · omega
      · have turned := not_improving none_ ⟨exchange.distinct.symm, exchange.insideJ,
          exchange.insideI, exchange.seatY, exchange.seatX⟩ clearJ
        rw [swapSeats_comm exchange.distinct] at turned
        omega
    · exact not_improving none_ exchange clearI
  unfold totalConflicts
  omega

end

def podsOf (generated : List TournamentPairing) : List (List String) :=
  (generated.filter (·.outcome.isNone)).map (·.players)

def byesOf (generated : List TournamentPairing) : List String :=
  (generated.filter (·.outcome.isSome)).flatMap (·.players)

/-- A Swiss round of this field. -/
structure SwissRound (order : List String) (arity : MatchArity)
    (history : List TournamentPairing) (firstId : Nat) (generated : List TournamentPairing) :
    Prop where
  seats : (generated.flatMap (·.players)).Perm order
  sizes : (podsOf generated).map (·.length) = (partitionRound order.length arity).sizes arity
  byes : (byesOf generated).length = (partitionRound order.length arity).byes
  ids : generated.map (·.id) = range' firstId generated.length
  fresh : (∀ old ∈ history, old.id < firstId) → ∀ pairing ∈ generated, ∀ old ∈ history,
    pairing.id ≠ old.id
  fair : FairChoice order (hadBye · history) (byesOf generated) (podsOf generated).flatten
  repaired : ∀ i x j y, Exchange (podsOf generated) i x j y →
    totalConflicts history (podsOf generated) ≤
      totalConflicts history (swapSeats (podsOf generated) i x j y)

section
variable {round id : Nat} {outcome : List String → Option PairingOutcome}
  {pods : List (List String)}

/-- The pairings are all pods, or all byes. -/
theorem filter_numbered {p : Option PairingOutcome → Bool}
    {generated : List TournamentPairing} (made : generated = numbered round outcome id pods) :
    ((∀ players, p (outcome players) = true) → generated.filter (p ·.outcome) = generated) ∧
      ((∀ players, p (outcome players) = false) → generated.filter (p ·.outcome) = []) := by
  have isOutcome : ∀ pairing ∈ generated, pairing.outcome = outcome pairing.players :=
    fun pairing mem => (mem_numbered (made ▸ mem)).2.2
  refine ⟨fun every => filter_eq_self.mpr fun pairing mem => ?_,
    fun never => filter_eq_nil_iff.mpr fun pairing mem => ?_⟩
  · rw [isOutcome pairing mem, every]
  · rw [isOutcome pairing mem, never]
    exact Bool.false_ne_true

end

section
variable (order : List String) (arity : MatchArity) (history : List TournamentPairing)
  (round firstId : Nat)

/-- Those who are not given a bye. -/
def seatedPlayers : List String :=
  (selectFair order (partitionRound order.length arity).byes (hadBye · history)).2

/-- The order in which the pods are filled: those chosen for the short pods come last. -/
def podOrder : List String :=
  let short := selectFair (seatedPlayers order arity history)
    ((partitionRound order.length arity).shortPods * arity.shortPodSize)
    (hadShortPod · arity history)
  short.2 ++ short.1

theorem podsOf_buildSwissRound :
    podsOf (buildSwissRound order arity history round firstId) = repairRematches history
      (greedyAssign history (podOrder order arity history)
        ((partitionRound order.length arity).sizes arity)) := by
  unfold buildSwissRound podsOf podOrder seatedPlayers RoundPartition.sizes
  rw [filter_append, (filter_numbered rfl).1 fun _ => rfl, (filter_numbered rfl).2 fun _ => rfl,
    append_nil, numbered_players]

theorem byesOf_buildSwissRound :
    byesOf (buildSwissRound order arity history round firstId) =
      (selectFair order (partitionRound order.length arity).byes (hadBye · history)).1 := by
  unfold buildSwissRound byesOf
  rw [filter_append, (filter_numbered rfl).2 fun _ => rfl, (filter_numbered rfl).1 fun _ => rfl,
    nil_append, numbered_flatMap, ← flatMap_def, flatMap_singleton']

theorem seatedPlayers_length : (seatedPlayers order arity history).length =
    ((partitionRound order.length arity).sizes arity).sum := by
  have seats := partitionRound_seats order.length arity
  have all := (selectFair_perm order (partitionRound order.length arity).byes
    (hadBye · history)).length_eq
  rw [length_append, selectFair_length _ _ _ (by omega)] at all
  unfold seatedPlayers
  omega

theorem podOrder_perm : (podOrder order arity history).Perm (seatedPlayers order arity history) :=
  perm_append_comm.trans (selectFair_perm _ _ _)

theorem podOrder_length : (podOrder order arity history).length =
    ((partitionRound order.length arity).sizes arity).sum :=
  (podOrder_perm order arity history).length_eq.trans (seatedPlayers_length order arity history)

/-- A Swiss round seats everyone in pods of the right sizes, hands out its byes fairly, and is
left by a repair that ends with no exchange to make. -/
theorem buildSwissRound_swiss :
    SwissRound order arity history firstId (buildSwissRound order arity history round firstId) ∧
      ∀ pods, Repairs history pods (repairRematches history pods) := by
  have isPods := podsOf_buildSwissRound order arity history round firstId
  have isByes := byesOf_buildSwissRound order arity history round firstId
  have made := buildSwissRound_fresh order arity history round firstId
  have whole := (podOrder_length order arity history).symm
  refine ⟨⟨buildSwissRound_seats order arity history round firstId, ?_, ?_, made.ids, ?_, ?_, ?_⟩,
    repairs_end⟩
  · rw [isPods, repairRematches, repairLoop_sizes, greedyAssign_sizes whole]
  · have seats := partitionRound_seats order.length arity
    rw [isByes, selectFair_length _ _ _ (by omega)]
  · intro older pairing mem old memOld same
    have isId := mem_map_of_mem (f := fun pairing : TournamentPairing => pairing.id) mem
    rw [made.ids, mem_range'_1] at isId
    have := older old memOld
    omega
  · have fair := selectFair_fair order (partitionRound order.length arity).byes (hadBye · history)
    have seated : (podsOf (buildSwissRound order arity history round firstId)).flatten.Perm
        (seatedPlayers order arity history) := by
      rw [isPods]
      exact (repairLoop_perm _ _).trans ((greedyAssign_perm _ _ _ whole).trans
        (podOrder_perm order arity history))
    rw [isByes]
    refine ⟨(seated.append_left _).trans fair.all, fun x mem => fair.freshFirst x ?_,
      fun x mem => fair.lowest x ?_⟩
    · exact seated.mem_iff.mp mem
    · exact seated.mem_iff.mp mem
  · intro i x j y exchange
    exact no_exchange_saves (isPods ▸ (repairs_end _).stuck) exchange

end

/-- Two players are too few for a pod of three or four: both have a bye, the second for the
second time, though the first has had none. -/
theorem second_bye_beside_a_first :
    ¬ ∀ (order : List String) (arity : MatchArity) (history : List TournamentPairing)
      (round firstId : Nat), order.Nodup →
      ∀ again ∈ byesOf (buildSwissRound order arity history round firstId),
        hadBye again history → ∀ other ∈ order, other ≠ again → hadBye other history := by
  intro others
  have second := others ["a", "b"] ⟨4, by decide, by decide⟩
    [{ id := 0, round := 1, players := ["b"], outcome := some .bye }] 2 1 (by decide) "b"
    (by decide +kernel) (by decide +kernel) "a" (by decide) (by decide)
  exact absurd second (by decide +kernel)

end Phase.Tournament
