import Phase.Lib.Slotted
import Phase.Mana.PoolSound

/-! The pool's reads answer as a scan of its units from the first to the last. -/
namespace Phase.Mana
open List PoolEntry Std.TreeMap

namespace ManaPool

variable {pool : ManaPool}

variable {slot : PoolSlot}

theorem mem_ordered {index : Nat} {pip : ManaPipId} :
    (slot, index, pip) ∈ pool.ordered ↔
      ∃ entry, pool.entries[index]? = some entry ∧ entry.slots[slot]? = some pip := by
  rw [ordered, mem_insertionSort, mem_flatMap]
  constructor
  · rintro ⟨⟨entry, i⟩, memE, memS⟩
    obtain ⟨⟨s, q⟩, listed, same⟩ := mem_map.mp memS
    cases same
    exact ⟨entry, mem_zipIdx_iff_getElem?.mp memE, mem_toList_iff_getElem?_eq_some.mp listed⟩
  · rintro ⟨entry, atIndex, there⟩
    exact ⟨(entry, index), mem_zipIdx_iff_getElem?.mpr atIndex,
      mem_map.mpr ⟨(slot, pip), mem_toList_iff_getElem?_eq_some.mpr there, rfl⟩⟩

theorem mem_slottedUnits {unit : ManaUnit} :
    (slot, unit) ∈ pool.slottedUnits ↔ pool.Holds slot unit := by
  simp only [slottedUnits, mem_filterMap, Option.map_eq_some_iff]
  constructor
  · rintro ⟨⟨s, index, pip⟩, mem, u, isUnit, same⟩
    cases same
    obtain ⟨entry, atIndex, there⟩ := mem_ordered.mp mem
    simp only [unitOf, atIndex, Option.map_some, Option.some.injEq] at isUnit
    subst isUnit
    exact ⟨entry, mem_of_getElem? atIndex, rfl, there⟩
  · rintro ⟨entry, mem, shape, there⟩
    obtain ⟨index, atIndex⟩ := mem_iff_getElem?.mp mem
    refine ⟨(slot, index, unit.pipId), mem_ordered.mpr ⟨entry, atIndex, there⟩, unit, ?_, rfl⟩
    simp [unitOf, atIndex, shape]

theorem ordered_slots (sound : pool.Sound) : pool.ordered.Pairwise fun a b => a.1 < b.1 := by
  have sorted : pool.ordered.Pairwise fun a b => a.1 ≤ b.1 :=
    pairwise_insertionSort (fun a b : PoolSlot × Nat × ManaPipId => a.1 ≤ b.1) _
  have distinct : pool.ordered.Pairwise fun a b => a.1 ≠ b.1 := by
    rw [ordered, (perm_insertionSort _ _).pairwise_iff fun h => Ne.symm h, pairwise_flatMap]
    constructor
    · rintro ⟨entry, index⟩ -
      rw [pairwise_map]
      exact entry.slots.distinct_keys_toList.imp fun {a b} h => by simpa using h
    · have apart := sound.apart
      rw [← zipIdx_map_fst 0 pool.entries, pairwise_map] at apart
      refine apart.imp fun {a b} h x memX y memY same => ?_
      obtain ⟨⟨s, q⟩, listedX, rfl⟩ := mem_map.mp memX
      obtain ⟨⟨t, r⟩, listedY, rfl⟩ := mem_map.mp memY
      subst same
      exact h.2 s (mem_slots.mpr ⟨q, mem_toList_iff_getElem?_eq_some.mp listedX⟩)
        (mem_slots.mpr ⟨r, mem_toList_iff_getElem?_eq_some.mp listedY⟩)
  exact (sorted.and distinct).imp fun {a b} h => lt_of_le_of_ne h.1 h.2

theorem slottedUnits_ordered (sound : pool.Sound) : Slotted.Ordered pool.slottedUnits := by
  rw [Slotted.Ordered, slottedUnits, pairwise_filterMap]
  refine (ordered_slots sound).imp fun {a b} less x isX y isY => ?_
  simp only [Option.map_eq_some_iff] at isX isY
  obtain ⟨u, -, rfl⟩ := isX
  obtain ⟨v, -, rfl⟩ := isY
  exact less

/-- The units in pool order are what the slots hold, sorted. -/
theorem slottedUnits_eq (sound : pool.Sound) {xs : List (PoolSlot × ManaUnit)}
    (ordered : Slotted.Ordered xs) (holds : ∀ s u, (s, u) ∈ xs ↔ pool.Holds s u) :
    pool.slottedUnits = xs :=
  (slottedUnits_ordered sound).ext ordered fun ⟨s, u⟩ => by rw [mem_slottedUnits, holds]

theorem getElem?_slottedUnits (index : Nat) : pool.slottedUnits[index]? =
    pool.ordered[index]?.bind fun item => (pool.unitOf item).map fun unit => (item.1, unit) := by
  refine Indexed.getElem?_filterMap ?_ index
  rintro ⟨s, i, q⟩ mem
  obtain ⟨entry, atIndex, -⟩ := mem_ordered.mp mem
  simp [unitOf, atIndex]

theorem unitAt_eq (index : Nat) : pool.unitAt index = pool.units[index]? := by
  rw [unitAt, units, getElem?_map, getElem?_slottedUnits]
  simp [Function.comp_def]

theorem nthSlot_eq (index : Nat) : pool.nthSlot index = pool.slottedUnits[index]?.map Prod.fst := by
  rw [nthSlot, getElem?_slottedUnits]
  cases found : pool.ordered[index]? with
  | none => rfl
  | some item =>
    obtain ⟨entry, atIndex, -⟩ := mem_ordered.mp (mem_of_getElem? found)
    simp [unitOf, atIndex]

theorem firstWhere_eq (sound : pool.Sound) (pred : ManaShape → Bool) : pool.firstWhere pred =
    .ok ((pool.slottedUnits.find? fun x => pred x.2.toManaShape).map fun x =>
      (x.1, x.2.toManaShape)) := by
  have filled (entry) (mem : entry ∈ pool.entries.filter fun entry => pred entry.shape) :=
    minKey?_slots (sound.filled entry (mem_of_mem_filter mem))
  have mapped : ((pool.entries.filter fun entry => pred entry.shape).mapM fun entry => do
      return (← entry.firstSlot, entry.shape)) =
        .ok ((pool.entries.filter fun entry => pred entry.shape).map fun entry =>
          (entry.slots.minKey?.getD 0, entry.shape)) := by
    refine Fallible.mapM_eq_ok fun entry mem => ?_
    obtain ⟨s, q, isMin, -⟩ := filled entry mem
    simp only [firstSlot, isMin]
    rfl
  rw [firstWhere, mapped]
  refine congrArg Except.ok ((slottedUnits_ordered sound).argmin_eq_find? ?_ ?_)
  · intro c memC
    obtain ⟨entry, memE, rfl⟩ := mem_map.mp memC
    obtain ⟨s, q, isMin, there, -⟩ := filled entry memE
    rw [isMin]
    obtain ⟨mem, passes⟩ := mem_filter.mp memE
    exact ⟨(s, entry.shape.withPip q), mem_slottedUnits.mpr ⟨entry, mem, rfl, there⟩, passes, rfl⟩
  · rintro ⟨t, u⟩ memX passes
    obtain ⟨entry, mem, shape, there⟩ := mem_slottedUnits.mp memX
    have memE : entry ∈ pool.entries.filter fun entry => pred entry.shape :=
      mem_filter.mpr ⟨mem, by rw [shape]; exact passes⟩
    obtain ⟨s, q, isMin, -, least⟩ := filled entry memE
    refine ⟨_, mem_map.mpr ⟨entry, memE, rfl⟩, ?_⟩
    rw [isMin]
    exact least t _ there

theorem shapeOfPip_eq (sound : pool.Sound) (pip : ManaPipId) : pool.shapeOfPip pip =
    (pool.units.find? fun unit => unit.pipId = pip).map fun unit => unit.toManaShape := by
  have least : (pool.entries.filterMap fun entry => (entry.firstSlotOf pip).map fun slot =>
      (slot, entry.shape)).argmin Prod.fst =
        (pool.slottedUnits.find? fun x => x.2.pipId = pip).map fun x =>
          (x.1, x.2.toManaShape) := by
    refine (slottedUnits_ordered sound).argmin_eq_find? ?_ ?_
    · intro c memC
      obtain ⟨entry, mem, isC⟩ := mem_filterMap.mp memC
      obtain ⟨s, isFirst, rfl⟩ := Option.map_eq_some_iff.mp isC
      have there := ((firstSlotOf_eq_some (sound.indexed entry mem)).mp isFirst).1
      exact ⟨(s, entry.shape.withPip pip), mem_slottedUnits.mpr ⟨entry, mem, rfl, there⟩,
        by simp, rfl⟩
    · rintro ⟨t, u⟩ memX passes
      obtain ⟨entry, mem, -, there⟩ := mem_slottedUnits.mp memX
      have isPip : u.pipId = pip := by simpa using passes
      cases isFirst : entry.firstSlotOf pip with
      | none =>
        exact absurd (isPip ▸ there) ((firstSlotOf_eq_none (sound.indexed entry mem)).mp isFirst t)
      | some s =>
        refine ⟨_, mem_filterMap.mpr ⟨entry, mem, by rw [isFirst]; rfl⟩, ?_⟩
        exact ((firstSlotOf_eq_some (sound.indexed entry mem)).mp isFirst).2 t (isPip ▸ there)
  rw [shapeOfPip, least, units, find?_map, Option.map_map, Option.map_map]
  rfl

theorem unitByPip_eq (sound : pool.Sound) (pip : ManaPipId) :
    pool.unitByPip pip = pool.units.find? fun unit => unit.pipId = pip := by
  rw [unitByPip, shapeOfPip_eq sound]
  cases found : pool.units.find? fun unit => unit.pipId = pip with
  | none => rfl
  | some unit =>
    have isPip : unit.pipId = pip := by simpa using find?_some found
    simp [← isPip]

theorem min?_pins {entry : PoolEntry} (indexed : entry.Indexed) {pins : List ManaPipId} :
    (pins.filterMap entry.firstSlotOf).min? = some slot ↔
      (∃ pip ∈ pins, entry.slots[slot]? = some pip) ∧
        ∀ (s : PoolSlot), ∀ pip ∈ pins, entry.slots[s]? = some pip → slot ≤ s := by
  have firstOf (pip : ManaPipId) {s : PoolSlot} (there : entry.slots[s]? = some pip) :
      ∃ t ≤ s, entry.firstSlotOf pip = some t := by
    cases isFirst : entry.firstSlotOf pip with
    | none => exact absurd there ((firstSlotOf_eq_none indexed).mp isFirst s)
    | some t => exact ⟨t, ((firstSlotOf_eq_some indexed).mp isFirst).2 s there, rfl⟩
  rw [min?_eq_some_iff]
  simp only [mem_filterMap]
  constructor
  · rintro ⟨⟨pip, mem, isFirst⟩, least⟩
    refine ⟨⟨pip, mem, ((firstSlotOf_eq_some indexed).mp isFirst).1⟩, ?_⟩
    intro s other memO there
    obtain ⟨t, le, isT⟩ := firstOf other there
    exact (least t ⟨other, memO, isT⟩).trans le
  · rintro ⟨⟨pip, mem, there⟩, least⟩
    refine ⟨⟨pip, mem, (firstSlotOf_eq_some indexed).mpr ⟨there, fun s => least s pip mem⟩⟩, ?_⟩
    rintro t ⟨other, memO, isT⟩
    exact least t other memO ((firstSlotOf_eq_some indexed).mp isT).1

section
variable (sound : pool.Sound)
include sound

theorem firstPinnedWhere_eq (pins : List ManaPipId) (pred : ManaShape → Bool) :
    pool.firstPinnedWhere pins pred =
      (pool.slottedUnits.find? fun x => x.2.pipId ∈ pins && pred x.2.toManaShape).map fun x =>
        (x.1, x.2.toManaShape) := by
  rw [firstPinnedWhere]
  split
  · next empty =>
    have none_ : (pool.slottedUnits.find? fun x =>
        x.2.pipId ∈ pins && pred x.2.toManaShape) = none := by
      simp [isEmpty_iff.mp empty]
    rw [none_]
    rfl
  · refine (slottedUnits_ordered sound).argmin_eq_find? ?_ ?_
    · intro c memC
      obtain ⟨entry, memE, isC⟩ := mem_filterMap.mp memC
      obtain ⟨mem, passes⟩ := mem_filter.mp memE
      obtain ⟨s, isFirst, rfl⟩ := Option.map_eq_some_iff.mp isC
      obtain ⟨⟨pip, pinned, there⟩, -⟩ := (min?_pins (sound.indexed entry mem)).mp isFirst
      exact ⟨(s, entry.shape.withPip pip), mem_slottedUnits.mpr ⟨entry, mem, rfl, there⟩,
        by simp [pinned, passes], rfl⟩
    · rintro ⟨t, u⟩ memX passes
      simp only [Bool.and_eq_true, decide_eq_true_eq] at passes
      obtain ⟨entry, mem, shape, there⟩ := mem_slottedUnits.mp memX
      have memE : entry ∈ pool.entries.filter fun entry => pred entry.shape :=
        mem_filter.mpr ⟨mem, by rw [shape]; exact passes.2⟩
      cases isFirst : (pins.filterMap entry.firstSlotOf).min? with
      | none =>
        have none_ := min?_eq_none_iff.mp isFirst
        have noPin := (filterMap_eq_nil_iff.mp none_) u.pipId passes.1
        exact absurd there ((firstSlotOf_eq_none (sound.indexed entry mem)).mp noPin t)
      | some s =>
        refine ⟨_, mem_filterMap.mpr ⟨entry, memE, by rw [isFirst]; rfl⟩, ?_⟩
        exact ((min?_pins (sound.indexed entry mem)).mp isFirst).2 t _ passes.1 there

theorem slottedUnits_perm : pool.slottedUnits.Perm
    (pool.entries.flatMap fun entry =>
      entry.slots.toList.map fun item => (item.1, entry.shape.withPip item.2)) := by
  refine (perm_ext_iff_of_nodup (slottedUnits_ordered sound).nodup ?_).mpr ?_
  · refine nodup_flatMap.mpr ⟨fun entry _ => ?_, ?_⟩
    · refine Nodup.of_map Prod.fst ?_
      rw [map_map]
      refine pairwise_map.mpr (entry.slots.distinct_keys_toList.imp fun {a b} h => ?_)
      simpa using h
    · refine sound.apart.imp fun {a b} apart => ?_
      rintro ⟨s, u⟩ memA memB
      obtain ⟨⟨s', q⟩, listedA, sameA⟩ := mem_map.mp memA
      obtain ⟨⟨t, r⟩, listedB, sameB⟩ := mem_map.mp memB
      obtain rfl : s' = s := (Prod.ext_iff.mp sameA).1
      obtain rfl : t = s' := (Prod.ext_iff.mp sameB).1
      exact apart.2 t (mem_slots.mpr ⟨q, mem_toList_iff_getElem?_eq_some.mp listedA⟩)
        (mem_slots.mpr ⟨r, mem_toList_iff_getElem?_eq_some.mp listedB⟩)
  · rintro ⟨s, u⟩
    rw [mem_slottedUnits, mem_flatMap]
    refine exists_congr fun entry => and_congr_right fun _ => ?_
    rw [mem_map]
    constructor
    · rintro ⟨shape, there⟩
      exact ⟨(s, u.pipId), mem_toList_iff_getElem?_eq_some.mpr there,
        by rw [shape, ManaUnit.withPip_eta]⟩
    · rintro ⟨⟨t, q⟩, listed, same⟩
      cases same
      exact ⟨rfl, mem_toList_iff_getElem?_eq_some.mp listed⟩

theorem countWhere_eq (pred : ManaShape → Bool) :
    pool.countWhere pred = pool.units.countP fun unit => pred unit.toManaShape := by
  have each (entry : PoolEntry) : (entry.slots.toList.map fun item =>
      (item.1, entry.shape.withPip item.2)).countP (fun x => pred x.2.toManaShape) =
      if pred entry.shape then entry.slots.size else 0 := by
    by_cases passes : pred entry.shape <;> simp [Function.comp_def, passes]
  rw [units, countP_map, (slottedUnits_perm sound).countP_eq]
  simp only [Function.comp_def, countP_flatMap, each, countWhere, shapes]
  induction pool.entries with
  | nil => rfl
  | cons entry entries ih =>
    by_cases passes : pred entry.shape <;> simp [passes, ih]

theorem containsPip_eq (pip : ManaPipId) :
    pool.containsPip pip = pool.units.any fun unit => unit.pipId = pip := by
  rw [Bool.eq_iff_iff, containsPip, any_eq_true, any_eq_true]
  constructor
  · rintro ⟨entry, mem, has⟩
    obtain ⟨s, there⟩ := (contains_byPip (sound.indexed entry mem) pip).mp has
    exact ⟨entry.shape.withPip pip, mem_map.mpr
      ⟨(s, _), mem_slottedUnits.mpr ⟨entry, mem, rfl, there⟩, rfl⟩, by simp⟩
  · rintro ⟨unit, mem, isPip⟩
    obtain ⟨⟨s, u⟩, memS, rfl⟩ := mem_map.mp mem
    obtain ⟨entry, memE, -, there⟩ := mem_slottedUnits.mp memS
    have isPip : u.pipId = pip := by simpa using isPip
    exact ⟨entry, memE, (contains_byPip (sound.indexed entry memE) pip).mpr ⟨s, isPip ▸ there⟩⟩

theorem isEmpty_eq : pool.isEmpty = pool.units.isEmpty := by
  rw [Bool.eq_iff_iff, isEmpty, units, List.isEmpty_map, List.isEmpty_iff, List.isEmpty_iff,
    eq_nil_iff_forall_not_mem, eq_nil_iff_forall_not_mem]
  constructor
  · rintro none_ ⟨s, u⟩ mem
    obtain ⟨entry, memE, -⟩ := mem_slottedUnits.mp mem
    exact none_ entry memE
  · intro none_ entry mem
    obtain ⟨s, q, there⟩ := sound.filled entry mem
    exact none_ (s, entry.shape.withPip q) (mem_slottedUnits.mpr ⟨entry, mem, rfl, there⟩)

end

end ManaPool

end Phase.Mana
