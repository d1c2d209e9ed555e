import Phase.Priority.Topology
import Mathlib.Data.List.Cycle

/-! Walks from seat to seat: the living seats lie on one cycle. -/
namespace Phase.Priority
open List Nat
namespace Table

def previousPlayer (table : Table) (current : PlayerId) : PlayerId :=
  table.nextPlayerWalking .reversed current

def isOpponent (table : Table) (player other : PlayerId) : Bool :=
  player ≠ other && table.teamId player ≠ table.teamId other

inductive SeatDirection where
  | left
  | right
  deriving DecidableEq

/-- The way through the seats in which a direction goes. -/
def SeatDirection.walks : SeatDirection → TurnDirection
  | .left => .normal
  | .right => .reversed

def neighbor (table : Table) (controller : PlayerId) : SeatDirection → PlayerId
  | .left => table.nextPlayer controller
  | .right => table.previousPlayer controller

/-- The loop from `candidate` on; `none` when `fuel` candidates were not enough. -/
def nearestOpponentFrom (table : Table) (controller : PlayerId) (direction : SeatDirection) :
    Nat → PlayerId → Option (Option PlayerId)
  | 0, _ => none
  | fuel + 1, candidate =>
    if candidate = controller then some none
    else if table.isOpponent controller candidate then some (some candidate)
    else table.nearestOpponentFrom controller direction fuel (table.neighbor candidate direction)

def nearestOpponent (table : Table) (fuel : Nat) (controller : PlayerId)
    (direction : SeatDirection) : Option (Option PlayerId) :=
  table.nearestOpponentFrom controller direction fuel (table.neighbor controller direction)

/-- The players still in the game, by their seats. -/
def living (table : Table) : List PlayerId := table.seatOrder.filter table.isAlive

/-- The seats as a walk from `current` meets them, its own last. -/
def walk (table : Table) (direction : TurnDirection) (current : PlayerId) : List PlayerId :=
  let len := table.seatOrder.length
  let currentIdx := if current ∈ table.seatOrder then table.seatOrder.idxOf current else 0
  (range len).map fun offset =>
    table.seatOrder.getD (turnOrderIndex currentIdx (offset + 1) len direction) 0

variable {table : Table} {direction : TurnDirection} {current : PlayerId}

theorem nextPlayerWalking_eq :
    table.nextPlayerWalking direction current =
      ((table.walk direction current).find? table.isAlive).getD current := rfl

section
variable {before after : List PlayerId} {seat : PlayerId}

theorem startIdx_split (once : table.seatOrder.Nodup)
    (split : table.seatOrder = before ++ current :: after) :
    (if current ∈ table.seatOrder then table.seatOrder.idxOf current else 0) = before.length := by
  rw [split] at once ⊢
  have out : current ∉ before := fun inside =>
    disjoint_of_nodup_append once inside mem_cons_self
  rw [if_pos (by simp), idxOf_append_of_notMem out, idxOf_cons_self, add_zero]

variable (split : table.seatOrder = before ++ seat :: after)
  (place : (if current ∈ table.seatOrder then table.seatOrder.idxOf current else 0) =
    before.length)
include split place

/-- Going forward the seats behind come first, then those in front. -/
theorem walk_normal : table.walk .normal current = after ++ (before ++ [seat]) := by
  have length : table.seatOrder.length = before.length + (after.length + 1) := by simp [split]
  rw [walk]
  simp only [place, turnOrderIndex]
  refine ext_getElem (by simp [length]; omega) fun i small _ => ?_
  rw [length_map, length_range] at small
  rw [getElem_map, getElem_range]
  by_cases ahead : i < after.length
  · rw [mod_eq_of_lt (by omega), getElem_append_left ahead, split,
      getD_eq_getElem _ _ (by simp; omega)]
    simp [show before.length + (i + 1) - before.length = i + 1 by omega]
  · have wrapped : (before.length + (i + 1)) % table.seatOrder.length = i - after.length := by
      rw [mod_eq_sub_mod (by omega), mod_eq_of_lt (by omega)]
      omega
    rw [wrapped, getElem_append_right (not_lt.mp ahead), split]
    rw [show before ++ seat :: after = (before ++ [seat]) ++ after by simp,
      getD_append _ _ _ _ (by simp; omega), getD_eq_getElem]

theorem walk_reversed :
    table.walk .reversed current = before.reverse ++ (after.reverse ++ [seat]) := by
  have length : table.seatOrder.length = before.length + (after.length + 1) := by simp [split]
  rw [walk]
  simp only [place, turnOrderIndex]
  refine ext_getElem (by simp [length]) fun i small _ => ?_
  rw [length_map, length_range] at small
  rw [getElem_map, getElem_range]
  by_cases front : i < before.length
  · have place : (before.length + table.seatOrder.length - (i + 1) % table.seatOrder.length) %
        table.seatOrder.length = before.length - 1 - i := by
      rw [mod_eq_of_lt (show i + 1 < table.seatOrder.length by omega),
        mod_eq_sub_mod (by omega), mod_eq_of_lt (by omega)]
      omega
    rw [place, getElem_append_left (by simpa using front), getElem_reverse, split,
      getD_append _ _ _ _ (by omega), getD_eq_getElem]
  · rw [getElem_append_right (by simpa using front)]
    by_cases behind : i - before.length < after.length
    · have place : (before.length + table.seatOrder.length - (i + 1) % table.seatOrder.length) %
          table.seatOrder.length = before.length + table.seatOrder.length - (i + 1) := by
        rw [mod_eq_of_lt (show i + 1 < table.seatOrder.length by omega), mod_eq_of_lt (by omega)]
      rw [place, getElem_append_left (by simpa using behind), getElem_reverse, split,
        getD_append_right _ _ _ _ (by simp; omega), getD_eq_getElem _ _ (by simp; omega),
        getElem_cons]
      rw [dif_neg (by simp; omega)]
      congr 1
      simp
      omega
    · have last : i + 1 = table.seatOrder.length := by omega
      rw [last, Nat.mod_self, Nat.sub_zero, Nat.add_mod_right, Nat.mod_eq_of_lt (by omega), split]
      rw [getElem_append_right (by simp; omega)]
      simp

end

theorem nextPlayerWalking_head : table.nextPlayerWalking direction current =
    ((table.walk direction current).filter table.isAlive).head?.getD current := by
  rw [nextPlayerWalking_eq, head?_filter]

theorem mem_living : current ∈ table.living ↔
    current ∈ table.seatOrder ∧ table.isAlive current = true := mem_filter

/-- The living seats around one of them. -/
theorem living_split (alive : current ∈ table.living) : ∃ before after,
    table.seatOrder = before ++ current :: after ∧
      table.living = before.filter table.isAlive ++ current :: after.filter table.isAlive := by
  obtain ⟨seated, lives⟩ := mem_living.mp alive
  obtain ⟨before, after, split⟩ := append_of_mem seated
  exact ⟨before, after, split, by
    rw [living, split, filter_append, filter_cons_of_pos lives]⟩

section
variable (once : table.seatOrder.Nodup)
include once

theorem living_nodup : table.living.Nodup := once.filter _

/-- The living seats in front of one of them and behind it, as a walk from it meets them. -/
theorem walk_living {before after : List PlayerId}
    (shown : table.living = before ++ current :: after) :
    (table.walk .normal current).filter table.isAlive = after ++ (before ++ [current]) ∧
      (table.walk .reversed current).filter table.isAlive =
        before.reverse ++ (after.reverse ++ [current]) := by
  have alive : current ∈ table.living := by simp [shown]
  have lives := (mem_living.mp alive).2
  obtain ⟨behind, ahead, split, shown'⟩ := living_split alive
  have distinct := living_nodup once
  rw [shown'] at distinct
  have out := (nodup_cons.mp (nodup_middle.mp distinct)).1
  rw [mem_append, not_or] at out
  obtain ⟨rfl, -, rfl⟩ := (append_cons_inj_of_notMem out.1 out.2).mp (shown'.symm.trans shown)
  constructor
  · rw [walk_normal split (startIdx_split once split), filter_append, filter_append,
      filter_cons_of_pos lives, filter_nil]
  · rw [walk_reversed split (startIdx_split once split), filter_append, filter_append, filter_reverse,
      filter_reverse, filter_cons_of_pos lives, filter_nil]

theorem nextPlayer_eq_next (alive : current ∈ table.living) :
    table.nextPlayer current = table.living.next current alive := by
  obtain ⟨behind, ahead, shown⟩ := append_of_mem alive
  have walked := (walk_living once shown).1
  have bound : behind.length < table.living.length := by
    rw [shown, length_append, length_cons]
    omega
  have at_ : table.living[behind.length] = current := by simp [shown]
  have next := next_getElem table.living (living_nodup once) _ bound
  simp only [at_] at next
  rw [nextPlayer, nextPlayerWalking_head, walked, next]
  cases ahead with
  | nil =>
    cases behind with
    | nil => simp [shown]
    | cons first behind => simp [shown]
  | cons first ahead =>
    have inside : (behind.length + 1) % table.living.length = behind.length + 1 :=
      mod_eq_of_lt (by simp [shown])
    simp only [inside]
    simp [shown]

theorem previousPlayer_eq_prev (alive : current ∈ table.living) :
    table.previousPlayer current = table.living.prev current alive := by
  obtain ⟨behind, ahead, shown⟩ := append_of_mem alive
  have walked := (walk_living once shown).2
  have bound : behind.length < table.living.length := by
    rw [shown, length_append, length_cons]
    omega
  have at_ : table.living[behind.length] = current := by simp [shown]
  have prev := prev_getElem table.living (living_nodup once) _ bound
  simp only [at_] at prev
  rw [previousPlayer, nextPlayerWalking_head, walked, prev]
  rcases eq_nil_or_concat' behind with rfl | ⟨behind, last, rfl⟩
  · rcases eq_nil_or_concat' ahead with rfl | ⟨ahead, last, rfl⟩
    · simp [shown]
    · simp [shown]
  · have inside : ((behind ++ [last]).length + (table.living.length - 1)) %
        table.living.length = behind.length := by
      rw [length_append, length_singleton, show behind.length + 1 + (table.living.length - 1) =
          behind.length + table.living.length by omega, add_mod_right]
      exact mod_eq_of_lt (by simp [shown])
    simp only [inside]
    simp [shown]

/-- `n` steps along the living seats lead `n` places on. -/
theorem iterate_nextPlayer {idx : Nat} (bound : idx < table.living.length) (n : Nat)
    (within : (idx + n) % table.living.length < table.living.length) :
    table.nextPlayer^[n] table.living[idx] = table.living[(idx + n) % table.living.length] := by
  induction n with
  | zero => simp [mod_eq_of_lt bound]
  | succ n ih =>
    have before := mod_lt (idx + n) (zero_lt_of_lt bound)
    have next := next_getElem table.living (living_nodup once) _ before
    rw [Function.iterate_succ_apply', ih before, nextPlayer_eq_next once (getElem_mem _), next]
    simp only [mod_add_mod, add_assoc]

theorem iterate_reaches {player other : PlayerId} (alive : player ∈ table.living)
    (other_ : other ∈ table.living) :
    ∃ n < table.living.length, table.nextPlayer^[n] player = other := by
  obtain ⟨i, hi, rfl⟩ := getElem_of_mem alive
  obtain ⟨j, hj, rfl⟩ := getElem_of_mem other_
  refine ⟨(j + table.living.length - i) % table.living.length, mod_lt _ (zero_lt_of_lt hi), ?_⟩
  rw [iterate_nextPlayer once hi _ (mod_lt _ (zero_lt_of_lt hi))]
  congr 1
  rw [add_mod_mod, show i + (j + table.living.length - i) = j + table.living.length by omega,
    add_mod_right, mod_eq_of_lt hj]

/-- `next_player` and `previous_player` lead from living seat to living seat, undo each other, and
go round all of them. -/
theorem living_cycle : (∀ player ∈ table.living, table.nextPlayer player ∈ table.living ∧
      table.previousPlayer player ∈ table.living ∧
      table.previousPlayer (table.nextPlayer player) = player ∧
      table.nextPlayer (table.previousPlayer player) = player) ∧
    ∀ player ∈ table.living, ∀ other ∈ table.living,
      ∃ n < table.living.length, table.nextPlayer^[n] player = other := by
  refine ⟨fun player alive => ?_, fun player alive other other_ =>
    iterate_reaches once alive other_⟩
  have next := nextPlayer_eq_next once alive
  have prev := previousPlayer_eq_prev once alive
  have nextAlive := next_mem table.living player alive
  have prevAlive := prev_mem table.living player alive
  refine ⟨next ▸ nextAlive, prev ▸ prevAlive, ?_, ?_⟩
  · rw [next, previousPlayer_eq_prev once nextAlive]
    exact prev_next _ (living_nodup once) _ _
  · rw [prev, nextPlayer_eq_next once prevAlive]
    exact next_prev _ (living_nodup once) _ _

end

theorem neighbor_eq (direction : SeatDirection) :
    table.neighbor current direction = table.nextPlayerWalking direction.walks current := by
  cases direction <;> rfl

theorem walk_self (once : table.seatOrder.Nodup) (direction : SeatDirection)
    (alive : current ∈ table.living) : ∃ others,
      (table.walk direction.walks current).filter table.isAlive = others ++ [current] ∧
        current ∉ others ∧ ∀ other, other ∈ table.living ↔ other ∈ others ∨ other = current := by
  obtain ⟨behind, ahead, shown⟩ := append_of_mem alive
  have distinct := living_nodup once
  rw [shown] at distinct
  have out := (nodup_cons.mp (nodup_middle.mp distinct)).1
  obtain ⟨forward, back⟩ := walk_living once shown
  rw [mem_append, not_or] at out
  cases direction with
  | left =>
    refine ⟨ahead ++ behind, by rw [append_assoc]; exact forward, by simp [out], fun other => ?_⟩
    simp only [shown, mem_append, mem_cons]
    tauto
  | right =>
    refine ⟨behind.reverse ++ ahead.reverse, by rw [append_assoc]; exact back,
      by simp [out], fun other => ?_⟩
    simp only [shown, mem_append, mem_cons, mem_reverse]
    tauto

/-- A walk that goes on from the neighbor meets the same seats, one place on. -/
theorem walk_neighbor (once : table.seatOrder.Nodup) {direction : SeatDirection}
    (alive : current ∈ table.living) {first : PlayerId} {others : List PlayerId}
    (walked : (table.walk direction.walks current).filter table.isAlive = first :: others) :
    table.neighbor current direction = first ∧ first ∈ table.living ∧
      (table.walk direction.walks first).filter table.isAlive = others ++ [first] := by
  refine ⟨by rw [neighbor_eq, nextPlayerWalking_head, walked]; rfl, ?_⟩
  obtain ⟨behind, ahead, shown⟩ := append_of_mem alive
  obtain ⟨forward, back⟩ := walk_living once shown
  cases direction with
  | left =>
    have walked := forward.symm.trans walked
    cases ahead with
    | cons next ahead =>
      cases walked
      have shown' : table.living = (behind ++ [current]) ++ first :: ahead := by simp [shown]
      exact ⟨by simp [shown], ((walk_living once shown').1).trans (by simp)⟩
    | nil =>
      cases behind with
      | nil =>
        cases walked
        exact ⟨alive, forward⟩
      | cons next behind =>
        cases walked
        have shown' : table.living = [] ++ first :: (behind ++ [current]) := by simp [shown]
        exact ⟨by simp [shown], ((walk_living once shown').1).trans (by simp)⟩
  | right =>
    have walked := back.symm.trans walked
    rcases eq_nil_or_concat' behind with rfl | ⟨behind, last, rfl⟩
    · rcases eq_nil_or_concat' ahead with rfl | ⟨ahead, last, rfl⟩
      · cases walked
        exact ⟨alive, back⟩
      · simp only [reverse_append, reverse_nil, reverse_singleton, nil_append,
          cons_append, cons.injEq] at walked
        obtain ⟨rfl, rfl⟩ := walked
        have shown' : table.living = (current :: ahead) ++ last :: [] := by simp [shown]
        exact ⟨by simp [shown], ((walk_living once shown').2).trans (by simp)⟩
    · simp only [reverse_append, reverse_singleton, cons_append, cons.injEq] at walked
      obtain ⟨rfl, rfl⟩ := walked
      have shown' : table.living = behind ++ last :: (current :: ahead) := by simp [shown]
      exact ⟨by simp [shown], ((walk_living once shown').2).trans (by simp)⟩

theorem not_isOpponent_self : table.isOpponent current current = false := by
  simp [isOpponent]

/-- The loop, from a candidate that is not the controller, while `rest` is still to be met before
the controller. -/
theorem nearestOpponentFrom_eq (once : table.seatOrder.Nodup) {direction : SeatDirection}
    {controller candidate : PlayerId} {rest seen : List PlayerId}
    (alive : candidate ∈ table.living) (apart : candidate ≠ controller) (out : controller ∉ rest)
    (walked : (table.walk direction.walks candidate).filter table.isAlive =
      rest ++ controller :: seen) {fuel : Nat} (enough : rest.length + 2 ≤ fuel) :
    table.nearestOpponentFrom controller direction fuel candidate =
      some ((candidate :: rest).find? (table.isOpponent controller)) := by
  induction rest generalizing candidate seen fuel with
  | nil =>
    obtain ⟨fuel, rfl⟩ := Nat.exists_eq_add_of_le' enough
    rw [show fuel + (length ([] : List PlayerId) + 2) = (fuel + 1) + 1 by rfl,
      nearestOpponentFrom, if_neg apart]
    cases met : table.isOpponent controller candidate with
    | true => simp [met]
    | false =>
      obtain ⟨next, -, -⟩ := walk_neighbor once alive walked
      rw [next, nearestOpponentFrom]
      simp [met]
  | cons second rest ih =>
    obtain ⟨fuel, rfl⟩ := Nat.exists_eq_add_of_le' enough
    rw [show fuel + ((second :: rest).length + 2) = (fuel + (rest.length + 2)) + 1 by
      rw [length_cons]; omega, nearestOpponentFrom, if_neg apart]
    obtain ⟨other, out⟩ := not_or.mp (mt mem_cons.mpr out)
    cases met : table.isOpponent controller candidate with
    | true => simp [met]
    | false =>
      obtain ⟨next, alive', walked'⟩ := walk_neighbor once alive walked
      rw [next, find?_cons_of_neg (by simp [met])]
      exact ih alive' (Ne.symm other) out
        (walked'.trans (append_assoc rest (controller :: seen) [second])) (by omega)

theorem find_living (seats : List PlayerId) (controller : PlayerId) :
    (seats.find? fun seat => table.isAlive seat && table.isOpponent controller seat) =
      (seats.filter table.isAlive).find? (table.isOpponent controller) := by
  simp

/-- The walk to the nearest opponent ends, at the first living seat that is one. -/
theorem nearestOpponent_eq (once : table.seatOrder.Nodup) {controller : PlayerId}
    (alive : controller ∈ table.living) (direction : SeatDirection) : ∃ enough, ∀ fuel ≥ enough,
      table.nearestOpponent fuel controller direction =
        some ((table.walk direction.walks controller).find? fun seat =>
          table.isAlive seat && table.isOpponent controller seat) := by
  obtain ⟨others, walked, out, -⟩ := walk_self once direction alive
  refine ⟨others.length + 1, fun fuel enough => ?_⟩
  have met : ((table.walk direction.walks controller).find? fun seat =>
      table.isAlive seat && table.isOpponent controller seat) =
      others.find? (table.isOpponent controller) := by
    rw [find_living, walked]
    simp [not_isOpponent_self]
  rw [met, nearestOpponent]
  cases others with
  | nil =>
    obtain ⟨next, -, -⟩ := walk_neighbor once alive walked
    obtain ⟨fuel, rfl⟩ := Nat.exists_eq_add_of_le' enough
    rw [next]
    exact if_pos rfl
  | cons first rest =>
    obtain ⟨next, firstAlive, walked'⟩ := walk_neighbor once alive walked
    obtain ⟨other, out⟩ := not_or.mp (mt mem_cons.mpr out)
    rw [next]
    exact nearestOpponentFrom_eq once firstAlive (Ne.symm other) out
      (walked'.trans (append_assoc rest [controller] [first])) enough

/-- On a table without duplicate seats the living seats form one cycle that the two walks go round
in opposite ways, and the nearest opponent is the first one met, if there is one. -/
theorem seat_navigation (once : table.seatOrder.Nodup) :
    ((∀ player ∈ table.living, table.nextPlayer player ∈ table.living ∧
        table.previousPlayer player ∈ table.living ∧
        table.previousPlayer (table.nextPlayer player) = player ∧
        table.nextPlayer (table.previousPlayer player) = player) ∧
      ∀ player ∈ table.living, ∀ other ∈ table.living,
        ∃ n < table.living.length, table.nextPlayer^[n] player = other) ∧
    ∀ controller ∈ table.living, ∀ direction : SeatDirection, ∃ found,
      (∃ enough, ∀ fuel ≥ enough, table.nearestOpponent fuel controller direction = some found) ∧
      found = ((table.walk direction.walks controller).find? fun seat =>
        table.isAlive seat && table.isOpponent controller seat) ∧
      (found = none ↔ ∀ other ∈ table.living, table.isOpponent controller other = false) := by
  refine ⟨living_cycle once, fun controller alive direction =>
    ⟨_, nearestOpponent_eq once alive direction, rfl, ?_⟩⟩
  obtain ⟨others, walked, -, all⟩ := walk_self once direction alive
  rw [find_living, walked, find?_eq_none]
  constructor
  · intro none_ other there
    have inside : other ∈ others ++ [controller] := by simpa using (all other).mp there
    simpa using none_ other inside
  · intro none_ other there
    simp [none_ other ((all other).mpr (by simpa using there))]

end Table

/-- Four seats, the third player out. -/
def fourSeats : Table where
  players := [⟨0, false⟩, ⟨1, false⟩, ⟨2, true⟩, ⟨3, false⟩]
  seatOrder := [0, 1, 2, 3]
  formatConfig := ⟨.constructed, false, none⟩
  activePlayer := 0
  turnDirection := .reversed

theorem four_seats_navigated : fourSeats.previousPlayer (fourSeats.nextPlayer 1) = 1 ∧
    ∃ enough, ∀ fuel ≥ enough, fourSeats.nearestOpponent fuel 1 .left = some (some 3) := by
  obtain ⟨⟨cycle, -⟩, nearest⟩ := Table.seat_navigation (show fourSeats.seatOrder.Nodup by decide)
  obtain ⟨-, -, back, -⟩ := cycle 1 (by decide)
  obtain ⟨found, ends, first, -⟩ := nearest 1 (by decide) .left
  have isThird : found = some 3 := first.trans (by decide)
  exact ⟨back, isThird ▸ ends⟩

end Phase.Priority
