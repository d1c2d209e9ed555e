import Mathlib.Data.Nat.Init
import Phase.Lib.Schedule

/-! The table as the players see it: packs queued at each seat, each seat's pool,
and the boosters still to open. One seat takes from the front of its queue and
hands on what is left. -/
namespace Phase.Draft

@[ext] structure Table (card : Type) where
  queues : Nat → List (List card)
  pools : Nat → List card
  futures : Nat → List (List card)
  round : Nat

/-- The rules of a table: who passes to whom in which round, how many rounds, and
what a seat does with the pack in front of it. -/
structure TableRules (card : Type) where
  podSize : Nat
  packCount : Nat
  next : Nat → Nat → Nat
  next_injective : ∀ round a b, a < podSize → b < podSize → next round a = next round b → a = b
  draft : Nat → List card → List card → List card × List card

namespace Table
variable {card : Type} (rules : TableRules card)

def Drained (table : Table card) : Prop := ∀ seat < rules.podSize, table.queues seat = []

instance (table : Table card) : Decidable (Drained rules table) :=
  decidable_of_iff (∀ seat < rules.podSize, (table.queues seat).isEmpty = true) (by
    simp [Drained])

/-- What `giver` hands to `seat`: nothing, or the rest of its pack. -/
def handed (round giver : Nat) (left : List card) (seat : Nat) : List (List card) :=
  if seat = rules.next round giver ∧ left ≠ [] then [left] else []

/-- `seat` drafts from the pack in front of it. -/
def draftAt (table : Table card) (seat : Nat) (left taken : List card) : Table card where
  queues other :=
    (if other = seat then (table.queues other).tail else table.queues other) ++
      handed rules table.round seat left other
  pools other := if other = seat then table.pools other ++ taken else table.pools other
  futures := table.futures
  round := table.round

/-- A drained table opens the next boosters, if a round is left. -/
def settle (table : Table card) : Table card :=
  if Drained rules table then
    if table.round + 1 = rules.packCount then { table with round := table.round + 1 }
    else
      { table with
        queues := fun seat => (table.futures seat).head?.toList
        futures := fun seat => (table.futures seat).tail
        round := table.round + 1 }
  else table

def step (seat : Nat) (table : Table card) : Option (Table card) :=
  if seat < rules.podSize then
    match table.queues seat with
    | [] => none
    | pack :: _ =>
      let (left, taken) := rules.draft seat pack (table.pools seat)
      some (settle rules (draftAt rules table seat left taken))
  else none

variable {rules}

variable {seat : Nat} {table : Table card}

theorem queues_draftAt_ne_nil {other : Nat} {left taken : List card} (different : other ≠ seat)
    (waiting : table.queues other ≠ []) :
    (draftAt rules table seat left taken).queues other ≠ [] := by
  simp [draftAt, different, waiting]

theorem settle_of_last (drained : Drained rules table) (last : table.round + 1 = rules.packCount) :
    settle rules table = { table with round := table.round + 1 } := by
  rw [settle, if_pos drained, if_pos last]

theorem settle_of_more (drained : Drained rules table) (more : table.round + 1 ≠ rules.packCount) :
    settle rules table = { table with
      queues := fun seat => (table.futures seat).head?.toList
      futures := fun seat => (table.futures seat).tail
      round := table.round + 1 } := by
  rw [settle, if_pos drained, if_neg more]

theorem settle_of_undrained (undrained : ¬Drained rules table) :
    settle rules table = table := if_neg undrained

theorem settle_of_waiting (bound : seat < rules.podSize) (waiting : table.queues seat ≠ []) :
    settle rules table = table :=
  settle_of_undrained fun drained => waiting (drained seat bound)

theorem head_draftAt (rules : TableRules card) {other : Nat} {pack : List card}
    {rest : List (List card)} (left taken : List card) (different : other ≠ seat)
    (front : table.queues other = pack :: rest) :
    ∃ more, (draftAt rules table seat left taken).queues other = pack :: more := by
  simp [draftAt, different, front]

theorem handed_comm {round i j : Nat} (different : i ≠ j) (hi : i < rules.podSize)
    (hj : j < rules.podSize) (left left' : List card) (seat : Nat) :
    handed rules round i left seat ++ handed rules round j left' seat =
      handed rules round j left' seat ++ handed rules round i left seat := by
  by_cases toI : seat = rules.next round i
  · have notJ : seat ≠ rules.next round j := fun toJ =>
      different (rules.next_injective round i j hi hj (toI ▸ toJ))
    simp [handed, notJ]
  · simp [handed, toI]

/-- Two seats draft in either order: neither reads what the other writes, and they
hand their packs to different neighbours. -/
theorem draftAt_comm {i j : Nat} {left taken left' taken' : List card} (different : i ≠ j)
    (hi : i < rules.podSize) (hj : j < rules.podSize) (waitingI : table.queues i ≠ [])
    (waitingJ : table.queues j ≠ []) :
    draftAt rules (draftAt rules table i left taken) j left' taken' =
      draftAt rules (draftAt rules table j left' taken') i left taken := by
  have queues : ∀ k, (draftAt rules (draftAt rules table i left taken) j left' taken').queues k =
      (draftAt rules (draftAt rules table j left' taken') i left taken).queues k := by
    intro k
    have comm := @handed_comm card rules table.round i j different hi hj left left' k
    simp only [draftAt]
    by_cases ki : k = i
    · subst ki
      rw [if_neg different, if_pos rfl, if_pos rfl, if_neg different,
        List.tail_append_of_ne_nil waitingI, List.append_assoc, List.append_assoc, comm]
    · by_cases kj : k = j
      · subst kj
        rw [if_pos rfl, if_neg ki, if_neg ki, if_pos rfl, List.tail_append_of_ne_nil waitingJ,
          List.append_assoc, List.append_assoc, comm]
      · simp only [ki, kj, if_false, List.append_assoc, comm]
  have pools : ∀ k, (draftAt rules (draftAt rules table i left taken) j left' taken').pools k =
      (draftAt rules (draftAt rules table j left' taken') i left taken).pools k := by
    intro k
    simp only [draftAt]
    by_cases ki : k = i
    · simp [ki, different]
    · simp [ki]
  exact Table.ext (funext queues) (funext pools) rfl rfl

theorem step_eq_some {next : Table card} :
    step rules seat table = some next ↔ seat < rules.podSize ∧ ∃ pack rest,
      table.queues seat = pack :: rest ∧
      next = settle rules (draftAt rules table seat
        (rules.draft seat pack (table.pools seat)).1
        (rules.draft seat pack (table.pools seat)).2) := by
  unfold step
  split
  · next bound =>
    cases front : table.queues seat with
    | nil => simp
    | cons pack rest => simp [bound, eq_comm]
  · next out => simp [out]

theorem step_commutes : Schedule.Commutes (step rules) := by
  intro i j table a b different movedI movedJ
  obtain ⟨hi, packI, restI, frontI, rfl⟩ := step_eq_some.mp movedI
  obtain ⟨hj, packJ, restJ, frontJ, rfl⟩ := step_eq_some.mp movedJ
  have waitingI : table.queues i ≠ [] := by simp [frontI]
  have waitingJ : table.queues j ≠ [] := by simp [frontJ]
  rw [settle_of_waiting hj (queues_draftAt_ne_nil different.symm waitingJ),
    settle_of_waiting hi (queues_draftAt_ne_nil different waitingI)]
  obtain ⟨moreJ, frontJ'⟩ := head_draftAt rules (rules.draft i packI (table.pools i)).1
    (rules.draft i packI (table.pools i)).2 different.symm frontJ
  obtain ⟨moreI, frontI'⟩ := head_draftAt rules (rules.draft j packJ (table.pools j)).1
    (rules.draft j packJ (table.pools j)).2 different frontI
  refine ⟨_, step_eq_some.mpr ⟨hj, packJ, moreJ, frontJ', rfl⟩,
    step_eq_some.mpr ⟨hi, packI, moreI, frontI', ?_⟩⟩
  have poolI : (draftAt rules table j (rules.draft j packJ (table.pools j)).1
      (rules.draft j packJ (table.pools j)).2).pools i = table.pools i := by
    simp [draftAt, different]
  have poolJ : (draftAt rules table i (rules.draft i packI (table.pools i)).1
      (rules.draft i packI (table.pools i)).2).pools j = table.pools j := by
    simp [draftAt, different.symm]
  rw [poolI, poolJ, draftAt_comm different hi hj waitingI waitingJ]

/-- A drained table is over. -/
theorem ended_of_drained (drained : Drained rules table) : Schedule.Ended (step rules) table := by
  intro seat
  unfold step
  split
  · next bound => rw [drained seat bound]
  · rfl

end Table
end Phase.Draft
