import Phase.Draft.Booster
import Mathlib.Algebra.Order.BigOperators.Group.List
import Mathlib.Data.List.Perm.Subperm

/-! When a booster can be opened whatever is rolled, and what is in it. -/
namespace Phase.Draft
open Drawing List Nat SheetDefinition LimitedSetPool Slotted

/-- The weights in front of a position. -/
def before (weights : List Nat) (idx : Nat) : Nat := (weights.take idx).sum

variable {weights : List Nat}

theorem before_succ {idx weight : Nat} (at_ : weights[idx]? = some weight) :
    before weights (idx + 1) = before weights idx + weight := by
  rw [before, before, take_add_one, at_]
  simp

theorem before_le {i j : Nat} (le : i ≤ j) : before weights i ≤ before weights j :=
  (take_sublist_take_left le).sum_le_sum fun _ _ => zero_le _

theorem before_length (weights : List Nat) : before weights weights.length = weights.sum := by
  rw [before, take_length]

/-- A roll that is not below the weights in front passes them by. -/
theorem landing_pass {passed rest : List Nat} {roll cumulative start : Nat}
    (reached : cumulative + passed.sum ≤ roll) (fits : cumulative + passed.sum < 2 ^ 64) :
    landing roll cumulative (((passed ++ rest).zipIdx start).map fun (weight, idx) => (idx, weight)) =
      landing roll (cumulative + passed.sum)
        ((rest.zipIdx (start + passed.length)).map fun (weight, idx) => (idx, weight)) := by
  induction passed generalizing cumulative start with
  | nil => rfl
  | cons weight passed ih =>
    rw [sum_cons] at reached fits
    rw [cons_append, zipIdx_cons, map_cons, landing, checkedAdd,
      if_pos (by omega), Option.bind_eq_bind, Option.bind_some, if_neg (by omega),
      ih (by omega) (by omega), sum_cons, length_cons]
    congr 1
    · omega
    · rw [show start + 1 + passed.length = start + (passed.length + 1) by omega]

section
variable {weights : List Nat} {roll idx weight : Nat} (at_ : weights[idx]? = some weight)
  (reached : before weights idx ≤ roll)
include at_ reached

theorem landing_split (fits : before weights idx < 2 ^ 64) :
    landing roll 0 (enumerated weights) = landing roll (before weights idx)
      ((idx, weight) :: ((weights.drop (idx + 1)).zipIdx (idx + 1)).map fun (weight, idx) =>
        (idx, weight)) := by
  obtain ⟨bound, rfl⟩ := List.getElem?_eq_some_iff.mp at_
  have passed := @landing_pass (weights.take idx) (weights.drop idx) roll 0 0
    (by rwa [zero_add]) (by rwa [zero_add])
  rw [take_append_drop, length_take, min_eq_left bound.le, zero_add,
    zero_add, ← cons_getElem_drop_succ (h := bound), zipIdx_cons] at passed
  exact passed

theorem landing_lands (inside : roll < before weights idx + weight)
    (fits : before weights idx + weight < 2 ^ 64) :
    landing roll 0 (enumerated weights) = some idx := by
  rw [landing_split at_ reached (by omega), landing, checkedAdd, if_pos fits]
  exact if_pos inside

theorem landing_overflows (fits : before weights idx < 2 ^ 64)
    (beyond : 2 ^ 64 ≤ before weights idx + weight) : landing roll 0 (enumerated weights) = none := by
  rw [landing_split at_ reached fits, landing, checkedAdd, if_neg (not_lt.mpr beyond)]
  rfl

end

theorem landing_past {roll : Nat} (reached : weights.sum ≤ roll) (fits : weights.sum < 2 ^ 64) :
    landing roll 0 (enumerated weights) = some 0 := by
  have passed := @landing_pass weights [] roll 0 0 (by rwa [zero_add]) (by rwa [zero_add])
  rwa [append_nil] at passed

theorem exists_lands {roll : Nat} (inside : roll < weights.sum) :
    ∃ idx weight, weights[idx]? = some weight ∧ before weights idx ≤ roll ∧
      roll < before weights idx + weight := by
  induction weights generalizing roll with
  | nil => cases inside
  | cons weight weights ih =>
    by_cases first : roll < weight
    · exact ⟨0, weight, rfl, zero_le _, by simpa [before] using first⟩
    · rw [sum_cons] at inside
      obtain ⟨idx, other, at_, reached, small⟩ := ih (show roll - weight < weights.sum by omega)
      refine ⟨idx + 1, other, at_, ?_, ?_⟩
      · rw [before, take_succ_cons, sum_cons, ← before]
        omega
      · rw [before, take_succ_cons, sum_cons, ← before]
        omega

/-- There is something to roll, and no roll below `total` runs into an overflow. -/
def Rollable (total : Nat) (weights : List Nat) : Prop :=
  0 < total ∧ ∀ idx < weights.length, before weights idx < total → before weights (idx + 1) < 2 ^ 64

/-- The positions that a roll below `total` can land on: the first one also when the weights do not
sum up to `total`. -/
def Chooses (total : Nat) (weights : List Nat) (idx : Nat) : Prop :=
  (∃ weight, weights[idx]? = some weight ∧ 0 < weight ∧ before weights idx < total) ∨
    (idx = 0 ∧ weights.sum < total)

variable {total : Nat}

theorem Rollable.fits (rollable : Rollable total weights) {idx : Nat} (bound : idx ≤ weights.length)
    (reached : before weights idx < total) : before weights idx < 2 ^ 64 := by
  cases idx with
  | zero => exact Nat.two_pow_pos 64
  | succ idx => exact rollable.2 idx bound (lt_of_le_of_lt (before_le (le_succ idx)) reached)

theorem weightedSelect_draws (rollable : Rollable total weights) :
    Draws (weightedSelect total (enumerated weights)) (Chooses total weights) := by
  have lands : ∀ roll, roll < total → ∃ idx, landing roll 0 (enumerated weights) = some idx ∧
      Chooses total weights idx := by
    intro roll small
    by_cases inside : roll < weights.sum
    · obtain ⟨idx, weight, at_, reached, within⟩ := exists_lands inside
      have bound := (List.getElem?_eq_some_iff.mp at_).1
      have fits := rollable.2 idx bound (by omega)
      rw [before_succ at_] at fits
      exact ⟨idx, landing_lands at_ reached within fits, .inl ⟨weight, at_, by omega, by omega⟩⟩
    · have past : weights.sum < total := by omega
      have fits := rollable.fits (le_refl _) (by rwa [before_length])
      rw [before_length] at fits
      exact ⟨0, landing_past (not_lt.mp inside) fits, .inr ⟨rfl, past⟩⟩
  have every : ∀ idx, Chooses total weights idx →
      ∃ roll < total, landing roll 0 (enumerated weights) = some idx := by
    rintro idx (⟨weight, at_, some_, small⟩ | ⟨rfl, past⟩)
    · have bound := (List.getElem?_eq_some_iff.mp at_).1
      have fits := rollable.2 idx bound small
      rw [before_succ at_] at fits
      exact ⟨_, small, landing_lands at_ (le_refl _) (by omega) fits⟩
    · have fits := rollable.fits (le_refl _) (by rwa [before_length])
      rw [before_length] at fits
      exact ⟨_, past, landing_past (le_refl _) fits⟩
  refine ((draws_below rollable.1).bind fun roll small =>
    draws_lift (lands roll small).choose_spec.1).congr fun idx => ⟨?_, every idx⟩
  rintro ⟨roll, small, found⟩
  obtain ⟨other, found', chosen⟩ := lands roll small
  rw [found] at found'
  cases found'
  exact chosen

theorem weightedSelect_fails (bad : ¬Rollable total weights) :
    Fails (weightedSelect total (enumerated weights)) := by
  by_cases some_ : 0 < total
  · have overflows : ∃ idx, idx < weights.length ∧ before weights idx < total ∧
        2 ^ 64 ≤ before weights (idx + 1) := by
      by_contra none_
      refine bad ⟨some_, fun idx bound small => ?_⟩
      by_contra beyond
      exact none_ ⟨idx, bound, small, not_lt.mp beyond⟩
    classical
    -- the first position at which the sum overflows, so that the roll gets that far
    obtain ⟨bound, small, beyond⟩ := Nat.find_spec overflows
    have first := fun {idx : Nat} => Nat.find_min overflows (m := idx)
    generalize Nat.find overflows = idx at *
    have fits : before weights idx < 2 ^ 64 := by
      cases idx with
      | zero => exact Nat.two_pow_pos 64
      | succ idx =>
        by_contra earlier
        exact first (Nat.lt_succ_self idx) ⟨by omega,
          Nat.lt_of_le_of_lt (before_le (Nat.le_succ idx)) small, Nat.not_lt.mp earlier⟩
    have at_ := getElem?_eq_getElem bound
    rw [before_succ at_] at beyond
    exact (draws_below some_).bind_fails small
      (fails_lift (landing_overflows at_ (Nat.le_refl _) fits beyond))
  · rw [Nat.eq_zero_of_not_pos some_]
    exact fails_below_zero.bind

/-- The entries that a roll can land on. -/
def weighted (pool : List (Nat × Nat)) : List (Nat × Nat) := pool.filter fun entry => 0 < entry.2

/-- `count` entries of the pool, each of a positive weight. -/
def Distinct (pool : List (Nat × Nat)) (count : Nat) (indices : List Nat) : Prop :=
  ∃ picks : List (Nat × Nat), picks.Subperm pool ∧ picks.length = count ∧
    (∀ pick ∈ picks, 0 < pick.2) ∧ indices = picks.map (·.1)

section
variable {pool left : List (Nat × Nat)} {entry : Nat × Nat} (perm : (entry :: left).Perm pool)
include perm

theorem weighted_taken (some_ : 0 < entry.2) :
    (weighted pool).length = (weighted left).length + 1 := by
  rw [weighted, ← (perm.filter _).length_eq, filter_cons_of_pos (by simpa using some_),
    length_cons, weighted]

theorem sum_taken : (pool.map (·.2)).sum = entry.2 + (left.map (·.2)).sum := by
  rw [← (perm.map (·.2)).sum_eq, map_cons, sum_cons]

end

theorem swapRemove_of {α : Type} {xs : List α} {i : Nat} {x : α} (at_ : xs[i]? = some x) :
    ∃ left, swapRemove xs i = some (x, left) := by
  have some_ : xs ≠ [] := by
    rintro rfl
    cases at_
  rw [swapRemove, at_, getLast?_eq_some_getLast some_]
  exact ⟨_, rfl⟩

/-- One draw from the pool, what it leaves, and the weight of that. -/
def drawOne (pool : List (Nat × Nat)) (total : Nat) :
    Draw ((Nat × Nat) × List (Nat × Nat) × Nat) := do
  let pickPos ← weightedSelect total (enumerated (pool.map (·.2)))
  let (entry, left) ← liftM (swapRemove pool pickPos)
  let total ← liftM (checkedSub total entry.2)
  return (entry, left, total)

theorem drawDistinct_succ (pool : List (Nat × Nat)) (total count : Nat) :
    drawDistinct pool total (count + 1) = (do
      let (entry, left, total) ← drawOne pool total
      let result ← drawDistinct left total count
      return entry.1 :: result) := by
  simp only [drawDistinct, drawOne, weightedSelect, bind_assoc, pure_bind]

variable {pool : List (Nat × Nat)}

theorem drawOne_draws (some_ : 0 < (weighted pool).length) (fits : (pool.map (·.2)).sum < 2 ^ 64) :
    Draws (drawOne pool (pool.map (·.2)).sum) fun (entry, left, total) =>
      0 < entry.2 ∧ (∃ pos, swapRemove pool pos = some (entry, left)) ∧
        total = (left.map (·.2)).sum := by
  obtain ⟨heavy, inside⟩ := exists_mem_of_length_pos some_
  obtain ⟨inside, positive⟩ := mem_filter.mp inside
  have positive : 0 < heavy.2 := by simpa using positive
  have total : 0 < (pool.map (·.2)).sum :=
    lt_of_lt_of_le positive (le_sum_of_mem (mem_map_of_mem inside))
  have rollable : Rollable (pool.map (·.2)).sum (pool.map (·.2)) := by
    refine ⟨total, fun idx bound _ => lt_of_le_of_lt ?_ fits⟩
    rw [← before_length (pool.map (·.2))]
    exact before_le bound
  have taken : ∀ pos, Chooses (pool.map (·.2)).sum (pool.map (·.2)) pos →
      ∃ entry left, swapRemove pool pos = some (entry, left) ∧ 0 < entry.2 ∧
        checkedSub (pool.map (·.2)).sum entry.2 = some (left.map (·.2)).sum := by
    rintro pos (⟨weight, at_, heavy, -⟩ | ⟨-, past⟩)
    · rw [getElem?_map] at at_
      obtain ⟨entry, found, rfl⟩ := Option.map_eq_some_iff.mp at_
      obtain ⟨left, removed⟩ := swapRemove_of found
      refine ⟨entry, left, removed, heavy, ?_⟩
      rw [sum_taken (swapRemove_perm removed), checkedSub, if_pos (le_add_right _ _),
        Nat.add_sub_cancel_left]
    · exact absurd past (lt_irrefl _)
  have step : ∀ pos, Chooses (pool.map (·.2)).sum (pool.map (·.2)) pos → Draws (do
      let (entry, left) ← liftM (swapRemove pool pos)
      let total ← liftM (checkedSub (pool.map (·.2)).sum entry.2)
      return (entry, left, total)) fun drawn => ∃ entry left,
        swapRemove pool pos = some (entry, left) ∧
          drawn = (entry, left, (left.map (·.2)).sum) := by
    intro pos chosen
    obtain ⟨entry, left, removed, heavy, rest⟩ := taken pos chosen
    rw [removed]
    show Draws (liftM (checkedSub (pool.map (·.2)).sum entry.2) >>= fun total =>
      pure (entry, left, total)) _
    rw [rest]
    refine (draws_pure (entry, left, (left.map (·.2)).sum)).congr fun drawn => ?_
    simp
  refine ((weightedSelect_draws rollable).bind step).congr fun (entry, left, total) => ?_
  constructor
  · rintro ⟨pos, chosen, entry', left', removed, same⟩
    cases same
    obtain ⟨entry', left', removed', heavy, -⟩ := taken pos chosen
    rw [removed] at removed'
    cases removed'
    exact ⟨heavy, ⟨pos, removed⟩, rfl⟩
  · rintro ⟨heavy, ⟨pos, removed⟩, rfl⟩
    obtain ⟨other, at_, rest⟩ := Option.bind_eq_some_iff.mp removed
    obtain ⟨last, -, rest⟩ := Option.bind_eq_some_iff.mp rest
    cases rest
    have weight : (pool.map (·.2))[pos]? = some entry.2 := by
      rw [getElem?_map, at_]
      rfl
    have small : before (pool.map (·.2)) pos < (pool.map (·.2)).sum := by
      have upto : before (pool.map (·.2)) (pos + 1) ≤ _ :=
        before_le (List.getElem?_eq_some_iff.mp weight).1
      rw [before_succ weight, before_length] at upto
      omega
    exact ⟨pos, .inl ⟨entry.2, weight, heavy, small⟩, _, _, removed, rfl⟩

/-- As many positions come out as are asked for, if as many can be landed on. -/
theorem drawDistinct_draws {count : Nat} (enough : count ≤ (weighted pool).length)
    (fits : (pool.map (·.2)).sum < 2 ^ 64) :
    Draws (drawDistinct pool (pool.map (·.2)).sum count) (Distinct pool count) := by
  induction count generalizing pool with
  | zero =>
    refine (draws_pure []).congr fun indices => ⟨?_, ?_⟩
    · rintro rfl
      exact ⟨[], nil_subperm, rfl, fun _ inside => (nomatch inside), rfl⟩
    · rintro ⟨picks, -, none_, -, rfl⟩
      rw [length_eq_zero_iff.mp none_, map_nil]
  | succ count ih =>
    have some_ : 0 < (weighted pool).length := lt_of_lt_of_le (succ_pos count) enough
    have rest : ∀ drawn : (Nat × Nat) × List (Nat × Nat) × Nat, (0 < drawn.1.2 ∧
        (∃ pos, swapRemove pool pos = some (drawn.1, drawn.2.1)) ∧
          drawn.2.2 = (drawn.2.1.map (·.2)).sum) →
        Draws (do
          let result ← drawDistinct drawn.2.1 drawn.2.2 count
          return drawn.1.1 :: result) fun indices =>
            ∃ result, Distinct drawn.2.1 count result ∧ indices = drawn.1.1 :: result := by
      rintro ⟨entry, left, total⟩ ⟨heavy, ⟨pos, removed⟩, same⟩
      obtain rfl : total = (left.map (·.2)).sum := same
      have perm := swapRemove_perm removed
      have enough' := weighted_taken perm heavy ▸ enough
      have fits' := sum_taken perm ▸ fits
      exact (ih (by omega) (by omega)).map fun result => entry.1 :: result
    rw [drawDistinct_succ]
    refine ((drawOne_draws some_ fits).bind rest).congr fun indices => ⟨?_, ?_⟩
    · rintro ⟨⟨entry, left, total⟩, ⟨heavy, ⟨pos, removed⟩, -⟩, result,
        ⟨picks, inside, rfl, positive, rfl⟩, rfl⟩
      exact ⟨entry :: picks,
        ((subperm_cons entry).mpr inside).trans (swapRemove_perm removed).subperm,
        rfl, forall_mem_cons.mpr ⟨heavy, positive⟩, rfl⟩
    · rintro ⟨picks, inside, length, positive, rfl⟩
      cases picks with
      | nil => cases length
      | cons entry picks =>
        obtain ⟨heavy, positive⟩ := forall_mem_cons.mp positive
        obtain ⟨pos, at_⟩ := mem_iff_getElem?.mp (inside.subset mem_cons_self)
        obtain ⟨left, removed⟩ := swapRemove_of at_
        have others := (subperm_cons entry).mp (inside.trans (swapRemove_perm removed).symm.subperm)
        exact ⟨(entry, left, _), ⟨heavy, ⟨pos, removed⟩, rfl⟩, _,
          ⟨picks, others, succ.inj length, positive, rfl⟩, rfl⟩

/-- When the entries that can be landed on are used up the total is zero, and the next roll has no
range. -/
theorem drawDistinct_fails {count : Nat} (short : (weighted pool).length < count)
    (fits : (pool.map (·.2)).sum < 2 ^ 64) :
    Fails (drawDistinct pool (pool.map (·.2)).sum count) := by
  induction count generalizing pool with
  | zero => cases short
  | succ count ih =>
    by_cases some_ : 0 < (weighted pool).length
    · have draws := drawOne_draws some_ fits
      obtain ⟨⟨entry, left, total⟩, heavy, ⟨pos, removed⟩, rfl⟩ := draws.some_result
      have perm := swapRemove_perm removed
      have short' := weighted_taken perm heavy ▸ short
      have fits' := sum_taken perm ▸ fits
      have failed : Fails (drawDistinct left (left.map (·.2)).sum count) :=
        ih (by omega) (by omega)
      rw [drawDistinct_succ]
      exact draws.bind_fails (a := (entry, left, _)) ⟨heavy, ⟨pos, removed⟩, rfl⟩ failed.bind
    · have none_ : (pool.map (·.2)).sum = 0 := by
        refine sum_eq_zero fun weight inside => ?_
        obtain ⟨entry, known, rfl⟩ := mem_map.mp inside
        by_contra heavy
        exact some_ (length_pos_of_mem (mem_filter.mpr
          ⟨known, by simpa using pos_of_ne_zero heavy⟩))
      rw [none_]
      exact fails_below_zero.bind

theorem checkedSum_eq {sum : Nat} (fits : sum < 2 ^ 64) :
    checkedSum sum weights =
      if sum + weights.sum < 2 ^ 64 then some (sum + weights.sum) else none := by
  induction weights generalizing sum with
  | nil => rw [checkedSum, sum_nil, add_zero, if_pos fits]
  | cons weight weights ih =>
    rw [checkedSum, checkedAdd, sum_cons, ← add_assoc]
    by_cases small : sum + weight < 2 ^ 64
    · rw [if_pos small]
      exact ih small
    · rw [if_neg small, if_neg (by omega)]
      rfl

namespace SheetDefinition
variable {sheet : SheetDefinition} {count : Nat} {exclude : List (String × String)}

theorem mem_eligible {idx weight : Nat} :
    (idx, weight) ∈ sheet.eligible exclude ↔ ∃ card, sheet.cards[idx]? = some card ∧
      card.printing ∉ exclude ∧ card.weight = weight := by
  rw [eligible, mem_map]
  constructor
  · rintro ⟨⟨card, other⟩, inside, same⟩
    cases same
    obtain ⟨known, out⟩ := mem_filter.mp inside
    exact ⟨card, mem_zipIdx_iff_getElem?.mp known, by simpa using out, rfl⟩
  · rintro ⟨card, at_, out, rfl⟩
    exact ⟨(card, idx), mem_filter.mpr ⟨mem_zipIdx_iff_getElem?.mpr at_, by simpa using out⟩, rfl⟩

theorem eligible_nodup : ((sheet.eligible exclude).map (·.1)).Nodup := by
  rw [eligible, map_map]
  have positions : (sheet.cards.zipIdx.map fun entry : SheetCard × Nat => entry.2).Nodup := by
    rw [zipIdx_map_snd]
    exact nodup_range'
  exact positions.sublist (filter_sublist.map _)

theorem eligible_all : (sheet.eligible []).length = sheet.cards.length := by
  simp [eligible]

variable (sheet count exclude) in
/-- The weights left on the sheet can be added up, and as many cards as are drawn have one. -/
def Drawable : Prop :=
  ((sheet.eligible exclude).map (·.2)).sum < 2 ^ 64 ∧
    min count (sheet.eligible exclude).length ≤ (weighted (sheet.eligible exclude)).length

theorem weightedSelectNExcluding_draws (drawable : sheet.Drawable count exclude) :
    Draws (sheet.weightedSelectNExcluding count exclude)
      (Distinct (sheet.eligible exclude) (min count (sheet.eligible exclude).length)) := by
  obtain ⟨fits, enough⟩ := drawable
  rw [weightedSelectNExcluding, checkedSum_eq (Nat.two_pow_pos 64), Nat.zero_add, if_pos fits]
  exact drawDistinct_draws enough fits

theorem weightedSelectNExcluding_fails (bad : ¬sheet.Drawable count exclude) :
    Fails (sheet.weightedSelectNExcluding count exclude) := by
  rw [weightedSelectNExcluding, checkedSum_eq (Nat.two_pow_pos 64), Nat.zero_add]
  by_cases fits : ((sheet.eligible exclude).map (·.2)).sum < 2 ^ 64
  · rw [if_pos fits]
    exact drawDistinct_fails (Nat.lt_of_not_le fun enough => bad ⟨fits, enough⟩) fits
  · rw [if_neg fits]
    exact (fails_lift rfl).bind

variable (sheet count) in
/-- The sheet can fill a slot of `count` cards. -/
def SlotDrawable : Prop :=
  if sheet.fixed then True
  else if sheet.allowDuplicates then
    count = 0 ∨ Rollable sheet.totalWeight (sheet.cards.map (·.weight)) ∧ sheet.cards ≠ []
  else sheet.Drawable count []

variable (sheet count) in
/-- The positions that may fill it. -/
def Selects (indices : List Nat) : Prop :=
  if sheet.fixed then
    indices = sheet.cards.zipIdx.flatMap fun (card, index) => replicate card.weight index
  else if sheet.allowDuplicates then indices.length = count ∧
    ∀ idx ∈ indices, Chooses sheet.totalWeight (sheet.cards.map (·.weight)) idx
  else Distinct (sheet.eligible []) (min count sheet.cards.length) indices

variable (sheet count) in
def Yields (picks : List SheetCard) : Prop :=
  ∃ indices, sheet.Selects count indices ∧ sheet.pick indices = some picks

variable (sheet count) in
/-- How many cards come of it. -/
def slotSize : Nat :=
  if sheet.fixed then (sheet.cards.map (·.weight)).sum
  else if sheet.allowDuplicates then count
  else min count sheet.cards.length

variable {indices : List Nat}

theorem pick_cons {idx : Nat} : sheet.pick (idx :: indices) = (do
    let card ← sheet.cards[idx]?
    let cards ← sheet.pick indices
    return card :: cards) := mapM_cons

theorem pick_some (inside : ∀ idx ∈ indices, idx < sheet.cards.length) :
    ∃ picks, sheet.pick indices = some picks := by
  induction indices with
  | nil => exact ⟨[], mapM_nil⟩
  | cons idx indices ih =>
    obtain ⟨first, others⟩ := forall_mem_cons.mp inside
    obtain ⟨picks, picked⟩ := ih others
    rw [pick_cons, getElem?_eq_getElem first, picked]
    exact ⟨_, rfl⟩

variable {picks : List SheetCard}

theorem pick_length (picked : sheet.pick indices = some picks) : picks.length = indices.length := by
  induction indices generalizing picks with
  | nil =>
    cases picked
    rfl
  | cons idx indices ih =>
    rw [pick_cons] at picked
    obtain ⟨card, -, picked⟩ := Option.bind_eq_some_iff.mp picked
    obtain ⟨cards, rest, result⟩ := Option.bind_eq_some_iff.mp picked
    cases result
    rw [length_cons, length_cons, ih rest]

/-- The positions drawn are different ones, and none is excluded. -/
theorem distinct_eligible (drawn : Distinct (sheet.eligible exclude) count indices) :
    indices.length = count ∧ indices.Nodup ∧ ∀ idx ∈ indices, ∃ card,
      sheet.cards[idx]? = some card ∧ card.printing ∉ exclude := by
  obtain ⟨picks, ⟨same, perm, inside⟩, length, -, rfl⟩ := drawn
  have each : ((sheet.eligible exclude).map (·.1)).Nodup := eligible_nodup
  have once := each.sublist (inside.map (·.1))
  refine ⟨by rw [length_map, length], (perm.map (·.1)).nodup_iff.mp once, fun idx there => ?_⟩
  obtain ⟨⟨idx, weight⟩, known, rfl⟩ := mem_map.mp there
  obtain ⟨card, at_, out, -⟩ := mem_eligible.mp (inside.subset (perm.mem_iff.mpr known))
  exact ⟨card, at_, out⟩

theorem length_fixed : (sheet.cards.zipIdx.flatMap fun (card, index) =>
    replicate card.weight index).length = (sheet.cards.map (·.weight)).sum := by
  have weights : (sheet.cards.zipIdx.map fun entry : SheetCard × Nat => entry.1.weight) =
      sheet.cards.map (·.weight) := by
    calc (sheet.cards.zipIdx.map fun entry : SheetCard × Nat => entry.1.weight) =
          (sheet.cards.zipIdx.map Prod.fst).map (·.weight) := by rw [map_map]; rfl
      _ = sheet.cards.map (·.weight) := by rw [zipIdx_map_fst]
  rw [← weights]
  simp

theorem Selects.length (selected : sheet.Selects count indices) :
    indices.length = sheet.slotSize count := by
  rw [Selects] at selected
  rw [slotSize]
  split at selected
  · next fixed => rw [if_pos fixed, selected, length_fixed]
  · next notFixed =>
    rw [if_neg notFixed]
    split at selected
    · next duplicates => exact selected.1.trans (if_pos duplicates).symm
    · next single => exact (distinct_eligible selected).1.trans (if_neg single).symm

theorem Yields.length (yields : sheet.Yields count picks) :
    picks.length = sheet.slotSize count := by
  obtain ⟨indices, selected, picked⟩ := yields
  exact (pick_length picked).trans selected.length

/-- Where a slot can be filled, the positions selected are on the sheet. -/
theorem Selects.inside (drawable : sheet.SlotDrawable count)
    (selected : sheet.Selects count indices) : ∀ idx ∈ indices, idx < sheet.cards.length := by
  intro idx there
  rw [Selects] at selected
  rw [SlotDrawable] at drawable
  split at selected
  · subst selected
    obtain ⟨⟨card, index⟩, known, there⟩ := mem_flatMap.mp there
    rw [eq_of_mem_replicate there]
    exact (List.getElem?_eq_some_iff.mp (List.mem_zipIdx_iff_getElem?.mp known)).1
  · split at selected
    · next duplicates =>
      rw [if_neg (by assumption), if_pos duplicates] at drawable
      rcases drawable with none_ | ⟨-, some_⟩
      · rw [length_eq_zero_iff.mp (selected.1.trans none_)] at there
        cases there
      · rcases selected.2 idx there with ⟨weight, at_, -⟩ | ⟨rfl, -⟩
        · simpa using (List.getElem?_eq_some_iff.mp at_).1
        · exact length_pos_iff.mpr some_
    · obtain ⟨card, at_, -⟩ := (distinct_eligible selected).2.2 idx there
      exact (List.getElem?_eq_some_iff.mp at_).1

/-- Filling a slot. -/
def openSheet (sheet : SheetDefinition) (count : Nat) : Draw (List SheetCard) := do
  let indices ← sheet.selectSheetCards count
  liftM (sheet.pick indices)

theorem selectSheetCards_draws (drawable : sheet.SlotDrawable count) :
    Draws (sheet.selectSheetCards count) (sheet.Selects count) := by
  rw [SlotDrawable] at drawable
  rw [selectSheetCards, show sheet.Selects count = _ from funext fun _ => by rw [Selects]]
  split
  · exact draws_pure _
  · next notFixed =>
    rw [if_neg notFixed] at drawable
    split
    · next duplicates =>
      rw [if_pos duplicates] at drawable
      rcases drawable with rfl | ⟨rollable, -⟩
      · refine (draws_pure []).congr fun indices => ⟨?_, fun none_ =>
          length_eq_zero_iff.mp none_.1⟩
        rintro rfl
        exact ⟨rfl, fun _ there => (nomatch there)⟩
      · exact (weightedSelect_draws rollable).repeated count
    · next single =>
      rw [if_neg single] at drawable
      rw [← eligible_all]
      exact weightedSelectNExcluding_draws drawable

theorem openSheet_draws (drawable : sheet.SlotDrawable count) :
    Draws (sheet.openSheet count) (sheet.Yields count) := by
  refine (selectSheetCards_draws drawable).bind fun indices selected => ?_
  obtain ⟨picks, picked⟩ := pick_some (Selects.inside drawable selected)
  exact draws_lift picked

theorem openSheet_fails (bad : ¬sheet.SlotDrawable count) : Fails (sheet.openSheet count) := by
  rw [SlotDrawable] at bad
  rw [openSheet, selectSheetCards]
  split at bad
  · exact absurd trivial bad
  · next notFixed =>
    rw [if_neg notFixed]
    split at bad
    · next duplicates =>
      rw [if_pos duplicates]
      obtain ⟨some_, bad⟩ := not_or.mp bad
      by_cases rollable : Rollable sheet.totalWeight (sheet.cards.map (·.weight))
      · -- the roll falls through to the first card of an empty sheet
        have empty : sheet.cards = [] := by
          by_contra other
          exact bad ⟨rollable, other⟩
        have first : Chooses sheet.totalWeight (sheet.cards.map (·.weight)) 0 :=
          .inr ⟨rfl, by simpa [empty] using rollable.1⟩
        have drawn : (replicate count 0).length = count ∧ ∀ idx ∈ replicate count 0,
            Chooses sheet.totalWeight (sheet.cards.map (·.weight)) idx :=
          ⟨length_replicate, fun idx there => eq_of_mem_replicate there ▸ first⟩
        refine ((weightedSelect_draws rollable).repeated count).bind_fails drawn (fails_lift ?_)
        obtain ⟨more, rfl⟩ := exists_eq_succ_of_ne_zero some_
        rw [replicate_succ, pick_cons, empty]
        rfl
      · exact ((weightedSelect_fails rollable).repeated (pos_of_ne_zero some_)).bind
    · next single =>
      rw [if_neg single]
      exact (weightedSelectNExcluding_fails bad).bind

end SheetDefinition

namespace LimitedSetPool
variable {pool : LimitedSetPool} {slot : PackSlot} {slots : List PackSlot} {variant : PackVariant}
  {picks : List SheetCard}

variable (pool) in
/-- The sheet of a slot that has one choice. -/
def slotSheet (slot : PackSlot) : Option SheetDefinition :=
  slot.choices.head?.bind fun choice => pool.sheet choice.sheet

variable (pool) in
def SlotYields (slot : PackSlot) (picks : List SheetCard) : Prop :=
  match pool.slotSheet slot with
  | none => picks = []
  | some sheet => sheet.Yields slot.count picks

variable (pool) in
/-- The cards that the slots may be filled with. -/
def Selection : List PackSlot → List SheetCard → Prop
  | [], picks => picks = []
  | slot :: slots, picks => ∃ first others, pool.SlotYields slot first ∧
      Selection slots others ∧ picks = first ++ others

variable (pool) in
/-- How many cards fill the slot. -/
def slotSize (slot : PackSlot) : Nat := ((pool.slotSheet slot).map (·.slotSize slot.count)).getD 0

variable (pool) in
def SlotsDrawable (slots : List PackSlot) : Prop :=
  ∀ slot ∈ slots, ∀ sheet ∈ pool.slotSheet slot, sheet.SlotDrawable slot.count

theorem openSlot_eq {choice : WeightedSheetChoice} (single : slot.choices = [choice]) :
    pool.openSlot slot = match pool.slotSheet slot with
      | none => pure []
      | some sheet => sheet.openSheet slot.count := by
  rw [openSlot, slotSheet, single]
  rfl

theorem openSlot_draws (single : ∃ choice, slot.choices = [choice])
    (drawable : ∀ sheet ∈ pool.slotSheet slot, sheet.SlotDrawable slot.count) :
    Draws (pool.openSlot slot) (pool.SlotYields slot) := by
  obtain ⟨choice, single⟩ := single
  rw [openSlot_eq single, show pool.SlotYields slot = _ from funext fun _ => by rw [SlotYields]]
  cases known : pool.slotSheet slot with
  | none => exact draws_pure []
  | some sheet => exact openSheet_draws (drawable sheet known)

theorem openSlots_draws (single : ∀ slot ∈ slots, ∃ choice, slot.choices = [choice])
    (drawable : pool.SlotsDrawable slots) :
    Draws (pool.openSlots slots) (pool.Selection slots) := by
  induction slots with
  | nil => exact draws_pure []
  | cons slot slots ih =>
    obtain ⟨one, singles⟩ := forall_mem_cons.mp single
    obtain ⟨first, others⟩ := forall_mem_cons.mp drawable
    refine ((openSlot_draws one first).bind fun picks _ =>
      (ih singles others).map fun others => picks ++ others).congr fun picks => ?_
    constructor
    · rintro ⟨first, drawn, others, rest, rfl⟩
      exact ⟨first, others, drawn, rest, rfl⟩
    · rintro ⟨first, others, drawn, rest, rfl⟩
      exact ⟨first, drawn, others, rest, rfl⟩

theorem openSlots_fails (single : ∀ slot ∈ slots, ∃ choice, slot.choices = [choice])
    (bad : ¬pool.SlotsDrawable slots) : Fails (pool.openSlots slots) := by
  induction slots with
  | nil => exact absurd (fun _ there => (nomatch there)) bad
  | cons slot slots ih =>
    obtain ⟨one, singles⟩ := forall_mem_cons.mp single
    by_cases first : ∀ sheet ∈ pool.slotSheet slot, sheet.SlotDrawable slot.count
    · have others : ¬pool.SlotsDrawable slots := fun others =>
        bad (forall_mem_cons.mpr ⟨first, others⟩)
      have draws := openSlot_draws one first
      obtain ⟨picks, drawn⟩ := draws.some_result
      exact draws.bind_fails drawn (ih singles others).bind
    · obtain ⟨choice, one⟩ := one
      simp only [not_forall] at first
      obtain ⟨sheet, known, bad⟩ := first
      refine Fails.bind ?_
      rw [openSlot_eq one, Option.mem_def.mp known]
      exact openSheet_fails bad

theorem SlotYields.length (yields : pool.SlotYields slot picks) :
    picks.length = pool.slotSize slot := by
  rw [SlotYields] at yields
  rw [slotSize]
  cases known : pool.slotSheet slot with
  | none =>
    rw [known] at yields
    rw [yields]
    rfl
  | some sheet =>
    rw [known] at yields
    exact yields.length

theorem Selection.length (selected : pool.Selection slots picks) :
    picks.length = (slots.map pool.slotSize).sum := by
  induction slots generalizing picks with
  | nil =>
    obtain rfl := selected
    rfl
  | cons slot slots ih =>
    obtain ⟨first, others, drawn, rest, rfl⟩ := selected
    rw [length_append, drawn.length, ih rest, map_cons, sum_cons]

variable (pool) in
/-- The sheet that replacement cards come from has as many unused entries as are missing. -/
def EnoughToBackfill (variant : PackVariant) (picks : List SheetCard) : Prop :=
  picks.length < variant.targetSize → ∃ sheet, pool.backfillSheet variant = some sheet ∧
    variant.targetSize - picks.length ≤ (sheet.eligible (picks.map (·.printing))).length

variable (pool) in
/-- Whatever fills the slots, the replacement cards for it can be drawn. -/
def BackfillDrawable (variant : PackVariant) (picks : List SheetCard) : Prop :=
  picks.length < variant.targetSize → ∀ sheet ∈ pool.backfillSheet variant,
    sheet.Drawable (variant.targetSize - picks.length) (picks.map (·.printing))

theorem backfill_safe (drawable : pool.BackfillDrawable variant picks) (rolls : Rolls) :
    ∃ all later, pool.backfill variant picks rolls = some (all, later) ∧
      (pool.EnoughToBackfill variant picks → all.length = max variant.targetSize picks.length) := by
  rw [backfill]
  by_cases short : picks.length < variant.targetSize
  · rw [if_pos short]
    cases known : pool.backfillSheet variant with
    | none =>
      refine ⟨picks, rolls, rfl, fun enough => ?_⟩
      obtain ⟨sheet, known', -⟩ := enough short
      rw [known] at known'
      cases known'
    | some sheet =>
      have draws := weightedSelectNExcluding_draws (drawable short sheet known)
      obtain ⟨extra, later, result, drawn⟩ := draws.safe rolls
      obtain ⟨length, -, inside⟩ := distinct_eligible drawn
      obtain ⟨cards, picked⟩ := pick_some fun idx there => by
        obtain ⟨card, at_, -⟩ := inside idx there
        exact (List.getElem?_eq_some_iff.mp at_).1
      refine ⟨picks ++ cards, later, ?_, fun enough => ?_⟩
      · refine (bind_some result).trans ?_
        rw [picked]
        rfl
      · obtain ⟨sheet', known', enough⟩ := enough short
        rw [known] at known'
        cases known'
        rw [length_append, pick_length picked]
        omega
  · rw [if_neg short]
    exact ⟨picks, rolls, rfl, fun _ => by omega⟩

theorem backfill_fails (bad : ¬pool.BackfillDrawable variant picks) :
    Fails (pool.backfill variant picks) := by
  simp only [BackfillDrawable, not_forall] at bad
  obtain ⟨short, sheet, known, bad⟩ := bad
  rw [backfill, if_pos short, Option.mem_def.mp known]
  exact (weightedSelectNExcluding_fails bad).bind

theorem selectVariant_draws
    (rollable : Rollable pool.packVariantsTotalWeight (pool.packVariants.map (·.weight)))
    (some_ : pool.packVariants ≠ []) :
    Draws pool.selectVariant fun variant => ∃ idx, Chooses pool.packVariantsTotalWeight
      (pool.packVariants.map (·.weight)) idx ∧ pool.packVariants[idx]? = some variant := by
  refine (weightedSelect_draws rollable).bind fun idx chosen => ?_
  have inside : idx < pool.packVariants.length := by
    rcases chosen with ⟨weight, at_, -⟩ | ⟨rfl, -⟩
    · simpa using (List.getElem?_eq_some_iff.mp at_).1
    · exact length_pos_iff.mpr some_
  exact draws_lift (getElem?_eq_getElem inside)

theorem selectVariant_fails
    (bad : ¬(Rollable pool.packVariantsTotalWeight (pool.packVariants.map (·.weight)) ∧
      pool.packVariants ≠ [])) : Fails pool.selectVariant := by
  by_cases rollable : Rollable pool.packVariantsTotalWeight (pool.packVariants.map (·.weight))
  · have none_ : pool.packVariants = [] := by
      by_contra some_
      exact bad ⟨rollable, some_⟩
    have first : Chooses pool.packVariantsTotalWeight (pool.packVariants.map (·.weight)) 0 :=
      .inr ⟨rfl, by simpa [none_] using rollable.1⟩
    exact (weightedSelect_draws rollable).bind_fails first (fails_lift (by rw [none_]; rfl))
  · exact (weightedSelect_fails rollable).bind

variable (pool) in
/-- Every slot of the variant can be filled, with no more cards than it declares in all, and the
cards missing can be replaced. -/
structure VariantDrawable (variant : PackVariant) : Prop where
  slots : pool.SlotsDrawable variant.contents
  size : (variant.contents.map pool.slotSize).sum ≤ variant.targetSize
  backfill : ∀ picks, pool.Selection variant.contents picks → pool.BackfillDrawable variant picks

variable (pool) in
/-- A variant can be rolled, and each of those that can be is drawable. -/
structure Drawable : Prop where
  rollable : Rollable pool.packVariantsTotalWeight (pool.packVariants.map (·.weight)) ∧
    pool.packVariants ≠ []
  variants : ∀ idx variant, Chooses pool.packVariantsTotalWeight
    (pool.packVariants.map (·.weight)) idx → pool.packVariants[idx]? = some variant →
      pool.VariantDrawable variant

end LimitedSetPool

/-- An extracted slot is filled from one sheet. -/
theorem extracted_single {parse : String → Option DraftEffect}
    {cardIndex : String → Option MtgjsonCard} {data : MtgjsonSetData} {pool : LimitedSetPool}
    (extracted : extractSetPoolIndexed parse cardIndex data = some pool) :
    ∀ variant ∈ pool.packVariants, ∀ slot ∈ variant.contents,
      ∃ choice, slot.choices = [choice] := by
  obtain ⟨booster, -, result⟩ := Option.bind_eq_some_iff.mp extracted
  cases result
  have plain : ∀ variant ∈ booster.boosters.map extractVariant, ∀ slot ∈ variant.contents,
      ∃ choice, slot.choices = [choice] := by
    intro variant there slot inside
    obtain ⟨source, -, rfl⟩ := mem_map.mp there
    obtain ⟨entry, -, rfl⟩ := mem_map.mp ((mem_insertionSort _).mp inside)
    exact ⟨_, rfl⟩
  intro variant there slot inside
  dsimp only [normalizePackVariants] at there
  split at there
  · obtain ⟨source, known, rfl⟩ := mem_map.mp there
    obtain ⟨slot', inside', rfl⟩ := mem_map.mp inside
    obtain ⟨choice, single⟩ := plain source known slot' inside'
    exact ⟨choice, by split <;> exact single⟩
  · exact plain variant there slot inside

theorem LimitedSetPool.instances_length (pool : LimitedSetPool) (seat packNumber : Nat)
    (picks : List SheetCard) : (pool.instances seat packNumber picks).length = picks.length := by
  simp [instances]

namespace PackGenerator
variable {generator : PackGenerator} {seat packNumber : Nat} {pool : LimitedSetPool}

variable (generator seat packNumber) in
/-- What a roll stream opens: the pack is there, and if the backfill sheet suffices it has as many
cards as the variant that was rolled declares. -/
def FillsPack (rolls : Rolls) : Prop :=
  ∃ pool variant between picks rest pack later, generator.poolForPack seat packNumber = some pool ∧
    pool.selectVariant rolls = some (variant, between) ∧
    pool.openSlots variant.contents between = some (picks, rest) ∧
    generator.generatePack seat packNumber rolls = some (pack, later) ∧
    (pool.EnoughToBackfill variant picks → pack.length = variant.targetSize)

section
variable (opens : generator.poolForPack seat packNumber = some pool) {rolls between rest : Rolls}
  {variant : PackVariant} {picks : List SheetCard}
include opens

theorem generatePack_eq : generator.generatePack seat packNumber = (do
    let variant ← pool.selectVariant
    let picks ← pool.openSlots variant.contents
    let picks ← pool.backfill variant picks
    return pool.instances seat packNumber picks) := by
  rw [generatePack, opens]
  rfl

section
variable (rolled : pool.selectVariant rolls = some (variant, between))
  (opened : pool.openSlots variant.contents between = some (picks, rest))
include rolled opened

theorem generatePack_of {all : List SheetCard} {later : Rolls}
    (filled : pool.backfill variant picks rest = some (all, later)) :
    generator.generatePack seat packNumber rolls =
      some (pool.instances seat packNumber all, later) := by
  rw [generatePack_eq opens, bind_some rolled, bind_some opened, bind_some filled]
  rfl

theorem generatePack_fails_backfill (failed : pool.backfill variant picks rest = none) :
    generator.generatePack seat packNumber rolls = none := by
  rw [generatePack_eq opens, bind_some rolled, bind_some opened]
  exact bind_none failed

end

theorem generatePack_fails_slots (rolled : pool.selectVariant rolls = some (variant, between))
    (failed : pool.openSlots variant.contents between = none) :
    generator.generatePack seat packNumber rolls = none := by
  rw [generatePack_eq opens, bind_some rolled]
  exact bind_none failed

end

theorem FillsPack.not_none {rolls : Rolls} (fills : generator.FillsPack seat packNumber rolls) :
    generator.generatePack seat packNumber rolls ≠ none := by
  obtain ⟨-, -, -, -, -, pack, later, -, -, -, result, -⟩ := fills
  rw [result]
  exact nofun

variable {parse : String → Option DraftEffect} {cardIndex : String → Option MtgjsonCard}
  {data : MtgjsonSetData}

theorem fillsPack_iff (extracted : extractSetPoolIndexed parse cardIndex data = some pool)
    (opens : generator.poolForPack seat packNumber = some pool) :
    (∀ rolls, generator.FillsPack seat packNumber rolls) ↔ pool.Drawable := by
  have single := extracted_single extracted
  constructor
  · intro fills
    have rollable : Rollable pool.packVariantsTotalWeight (pool.packVariants.map (·.weight)) ∧
        pool.packVariants ≠ [] := by
      by_contra bad
      obtain ⟨rolls, failed⟩ :=
        selectVariant_fails bad
      exact (fills rolls).not_none (generatePack_eq opens ▸ bind_none failed)
    have draws := selectVariant_draws rollable.1 rollable.2
    refine ⟨rollable, fun idx variant chosen at_ => ?_⟩
    have rolls_ : ∀ between, ∃ rolls, pool.selectVariant rolls = some (variant, between) :=
      draws.every variant ⟨idx, chosen, at_⟩
    have single := single variant (mem_of_getElem? at_)
    have slots : pool.SlotsDrawable variant.contents := by
      by_contra bad
      obtain ⟨between, failed⟩ := openSlots_fails single bad
      obtain ⟨rolls, rolled⟩ := rolls_ between
      exact (fills rolls).not_none (generatePack_fails_slots opens rolled failed)
    have slotDraws := openSlots_draws single slots
    have backfill : ∀ picks, pool.Selection variant.contents picks →
        pool.BackfillDrawable variant picks := by
      intro picks selected
      by_contra bad
      obtain ⟨rest, failed⟩ := backfill_fails bad
      obtain ⟨between, opened⟩ := slotDraws.every picks selected rest
      obtain ⟨rolls, rolled⟩ := rolls_ between
      exact (fills rolls).not_none (generatePack_fails_backfill opens rolled opened failed)
    refine ⟨slots, ?_, backfill⟩
    obtain ⟨picks, selected⟩ := slotDraws.some_result
    rw [← selected.length]
    by_contra beyond
    obtain ⟨between, opened⟩ := slotDraws.every picks selected fun _ => 0
    obtain ⟨rolls, rolled⟩ := rolls_ between
    obtain ⟨all, later, filled, size⟩ :=
      backfill_safe (backfill picks selected) fun _ => 0
    have result := generatePack_of opens rolled opened filled
    have length := pool.instances_length seat packNumber all
    obtain ⟨pool', variant', between', picks', rest', pack', later', opens', rolled', opened',
      result', exact_⟩ := fills rolls
    rw [opens] at opens'
    cases opens'
    rw [rolled] at rolled'
    cases rolled'
    rw [opened] at opened'
    cases opened'
    rw [result] at result'
    cases result'
    have enough : pool.EnoughToBackfill variant picks := fun short => by omega
    have size := size enough
    have exact_ := exact_ enough
    omega
  · rintro ⟨rollable, variants⟩ rolls
    obtain ⟨variant, between, rolled, idx, chosen, at_⟩ :=
      (selectVariant_draws rollable.1 rollable.2).safe rolls
    obtain ⟨slots, size, backfill⟩ := variants idx variant chosen at_
    obtain ⟨picks, rest, opened, selected⟩ :=
      (openSlots_draws (single variant (mem_of_getElem? at_)) slots).safe between
    obtain ⟨all, later, filled, full⟩ :=
      backfill_safe (backfill picks selected) rest
    have result := generatePack_of opens rolled opened filled
    have length := pool.instances_length seat packNumber all
    refine ⟨pool, variant, between, picks, rest, _, later, opens, rolled, opened, result,
      fun enough => ?_⟩
    have full := full enough
    have picked := selected.length
    omega

/-- Boosters are opened whatever is rolled, in the size declared, exactly when the pool can be drawn
from; and so are distinct cards of a sheet that are not excluded. -/
theorem boosters_total_iff (extracted : extractSetPoolIndexed parse cardIndex data = some pool)
    (opens : generator.poolForPack seat packNumber = some pool) :
    ((∀ rolls, generator.FillsPack seat packNumber rolls) ↔ pool.Drawable) ∧
    ∀ (sheet : SheetDefinition) (count : Nat) (exclude : List (String × String)),
      (∀ rolls, ∃ indices later,
        sheet.weightedSelectNExcluding count exclude rolls = some (indices, later) ∧
        indices.length = min count (sheet.eligible exclude).length ∧ indices.Nodup ∧
        ∀ idx ∈ indices, ∃ card, sheet.cards[idx]? = some card ∧ card.printing ∉ exclude) ↔
      sheet.Drawable count exclude := by
  refine ⟨fillsPack_iff extracted opens, fun sheet count exclude => ⟨fun total => ?_, ?_⟩⟩
  · by_contra bad
    obtain ⟨rolls, failed⟩ := weightedSelectNExcluding_fails bad
    obtain ⟨indices, later, result, -⟩ := total rolls
    rw [failed] at result
    cases result
  · intro drawable rolls
    obtain ⟨indices, later, result, drawn⟩ :=
      (weightedSelectNExcluding_draws drawable).safe rolls
    exact ⟨indices, later, result, distinct_eligible drawn⟩

end PackGenerator

/-- A set with one common; its boosters take a card from each sheet. -/
def oneCommon (sheets : List (String × MtgjsonSheet)) : MtgjsonSetData :=
  let config : MtgjsonBoosterConfig :=
    { sheets
      boosters := [⟨sheets.map fun (name, _) => (name, 1), 1⟩]
      boostersTotalWeight := 1 }
  { code := "ONE"
    name := "One Common"
    releaseDate := none
    booster := some { play := some config }
    cards := [⟨"c1", "Bear", "common", "1", "ONE", [], 2, "Creature", none⟩] }

def commonSheet : MtgjsonSheet where
  cards := [("c1", 1)]
  totalWeight := 1

/-- A sheet of one card that is not in any set downloaded. -/
def missingSheet : MtgjsonSheet where
  cards := [("x1", 1)]
  totalWeight := 1
  allowDuplicates := true

def extractedFrom (data : MtgjsonSetData) : Option LimitedSetPool :=
  extractSetPoolIndexed (fun _ => none) (buildCardIndex [data]) data

def bearSheet : SheetDefinition where
  cards := [⟨"Bear", "ONE", "1", .common, 1, [], 2, "Creature", none⟩]
  totalWeight := 1

def bearPool : LimitedSetPool where
  code := "ONE"
  name := "One Common"
  releaseDate := none
  packVariants := [⟨[⟨"common", 1, [⟨"common", 1⟩]⟩], 1⟩]
  packVariantsTotalWeight := 1
  sheets := [("common", bearSheet)]

theorem bearPool_drawable : bearPool.Drawable := by
  refine ⟨⟨⟨by decide, fun idx bound _ => ?_⟩, by decide⟩, fun idx variant _ at_ => ?_⟩
  · obtain rfl : idx = 0 := by simpa [bearPool] using bound
    decide
  · obtain rfl := mem_singleton.mp (mem_of_getElem? at_)
    refine ⟨fun slot there sheet known => ?_, by decide, fun picks selected short => ?_⟩
    · obtain rfl := mem_singleton.mp there
      cases known
      exact ⟨by decide, by decide⟩
    · have full : picks.length = 1 := selected.length
      exact absurd short (by rw [full]; decide)

/-- Every booster of the set is its one card. -/
theorem bearPool_fills : (PackGenerator.new bearPool).FillsPack 0 0 fun _ => 0 :=
  (PackGenerator.boosters_total_iff (show extractedFrom (oneCommon [("common", commonSheet)]) =
    some bearPool by decide +kernel) (show (PackGenerator.new bearPool).poolForPack 0 0 =
      some bearPool by decide +kernel)).1.mpr bearPool_drawable _

/-- A sheet that lets a card repeat and has none left sends the roll to a first card that is not
there. -/
theorem missing_sheet_fails : ∃ pool,
    extractedFrom (oneCommon [("common", commonSheet), ("theList", missingSheet)]) = some pool ∧
      (PackGenerator.new pool).generatePack 0 0 (fun _ => 0) = none := by
  have fails : ((extractedFrom (oneCommon [("common", commonSheet),
      ("theList", missingSheet)])).all fun pool =>
        ((PackGenerator.new pool).generatePack 0 0 fun _ => 0).isNone) = true := by
    decide +kernel
  cases extracted : extractedFrom (oneCommon [("common", commonSheet),
      ("theList", missingSheet)]) with
  | none => cases extracted
  | some pool =>
    rw [extracted] at fails
    exact ⟨pool, rfl, Option.isNone_iff_eq_none.mp fails⟩

end Phase.Draft
