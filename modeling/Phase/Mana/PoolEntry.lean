import Phase.Mana.Pool

/-! What one entry of the pool holds: its slots, and the pips read back to slots. -/
namespace Phase.Mana
open Std.TreeMap Option

namespace PoolEntry

variable {entry : PoolEntry}

/-- The pip index is the inverse of the slots' pips and files no empty set. -/
structure Indexed (entry : PoolEntry) : Prop where
  inverse : ∀ (pip : ManaPipId) (slot : PoolSlot),
    (∃ held, entry.byPip[pip]? = some held ∧ slot ∈ held) ↔ entry.slots[slot]? = some pip
  filled : ∀ (pip : ManaPipId) held, entry.byPip[pip]? = some held → ∃ slot, slot ∈ held

/-- The entry files a unit of its shape at a slot. -/
def Holds (entry : PoolEntry) (slot : PoolSlot) (unit : ManaUnit) : Prop :=
  entry.shape = unit.toManaShape ∧ entry.slots[slot]? = some unit.pipId

variable {slot : PoolSlot} {pip : ManaPipId} {unit : ManaUnit}

theorem holds_withPip (there : entry.slots[slot]? = some pip) :
    entry.Holds slot (entry.shape.withPip pip) := ⟨rfl, there⟩

theorem indexed_empty (shape : ManaShape) : Indexed ⟨shape, {}, {}⟩ :=
  ⟨by simp, by simp⟩

@[simp] theorem insert_shape (slot : PoolSlot) (pip : ManaPipId) :
    (entry.insert slot pip).shape = entry.shape := rfl

theorem insert_slots (slot : PoolSlot) (pip : ManaPipId) (s : PoolSlot) :
    (entry.insert slot pip).slots[s]? = if slot = s then some pip else entry.slots[s]? := by
  simp [insert, getElem?_insert]

theorem insert_holds {s : PoolSlot} :
    (entry.insert slot pip).Holds s unit ↔
      (s = slot ∧ unit = entry.shape.withPip pip) ∨ (s ≠ slot ∧ entry.Holds s unit) := by
  rw [Holds, insert_shape, insert_slots, Holds]
  by_cases here : s = slot
  · subst here
    simp only [if_pos, some.injEq, true_and, ne_eq, not_true_eq_false, false_and, or_false]
    constructor
    · rintro ⟨shape, rfl⟩
      rw [shape, ManaUnit.withPip_eta]
    · rintro rfl
      exact ⟨rfl, rfl⟩
  · simp [here, Ne.symm here]

theorem insert_byPip (slot : PoolSlot) (pip q : ManaPipId) :
    (entry.insert slot pip).byPip[q]? =
      if pip = q then some ((entry.byPip.getD pip {}).insert slot) else entry.byPip[q]? := by
  simp [insert, getElem?_insert]

theorem mem_getD_byPip (indexed : Indexed entry) :
    slot ∈ entry.byPip.getD pip {} ↔ entry.slots[slot]? = some pip := by
  rw [← indexed.inverse, getD_eq_getD_getElem?]
  cases entry.byPip[pip]? with
  | none => simp
  | some held => simp

theorem Indexed.insert (indexed : Indexed entry) (free : entry.slots[slot]? = none)
    (pip : ManaPipId) : Indexed (entry.insert slot pip) where
  inverse q s := by
    rw [insert_slots, insert_byPip]
    by_cases samePip : pip = q
    · subst samePip
      simp only [if_pos, some.injEq, exists_eq_left', Std.TreeSet.mem_insert, compare_eq_iff_eq,
        mem_getD_byPip indexed]
      by_cases here : slot = s
      · simp [here]
      · simp [here]
    · rw [if_neg samePip, indexed.inverse]
      by_cases here : slot = s
      · subst here
        simp [free, samePip]
      · simp [here]
  filled q held found := by
    rw [insert_byPip] at found
    by_cases samePip : pip = q
    · rw [if_pos samePip] at found
      cases found
      exact ⟨slot, by simp⟩
    · rw [if_neg samePip] at found
      exact indexed.filled q held found

/-- Removing a held slot gives its pip back and leaves every other slot. -/
theorem remove_eq (indexed : Indexed entry) (held : entry.slots[slot]? = some pip) :
    ∃ left, entry.remove slot = some (pip, left) ∧ left.shape = entry.shape ∧
      (∀ s : PoolSlot, left.slots[s]? = if slot = s then none else entry.slots[s]?) ∧
      Indexed left := by
  obtain ⟨filed, found, mem⟩ := (indexed.inverse pip slot).mpr held
  have slots : ∀ s : PoolSlot, (entry.slots.erase slot)[s]? =
      if slot = s then none else entry.slots[s]? := by simp [getElem?_erase]
  have others (q : ManaPipId) (s : PoolSlot) (other : pip ≠ q) :
      (entry.slots.erase slot)[s]? = some q ↔ entry.slots[s]? = some q := by
    rw [slots]
    by_cases here : slot = s
    · subst here
      simp [held, other]
    · simp [here]
  have same (s : PoolSlot) : (entry.slots.erase slot)[s]? = some pip ↔ s ∈ filed.erase slot := by
    have back := indexed.inverse pip s
    simp only [found, some.injEq, exists_eq_left'] at back
    rw [slots, Std.TreeSet.mem_erase, back]
    by_cases here : slot = s <;> simp [here]
  by_cases empty : (filed.erase slot).isEmpty
  · refine ⟨⟨entry.shape, entry.slots.erase slot, entry.byPip.erase pip⟩, ?_, rfl, slots, ?_, ?_⟩
    · simp only [remove, held, bind_eq_bind, bind_some, found, if_pos empty, pure_def]
    · intro q s
      rw [getElem?_erase]
      simp only [compare_eq_iff_eq]
      by_cases samePip : pip = q
      · subst samePip
        have none_ : s ∉ filed.erase slot := Std.TreeSet.isEmpty_iff_forall_not_mem.mp empty s
        rw [same]
        simp only [if_pos, reduceCtorEq, false_and, exists_false, none_]
      · rw [others q s samePip, if_neg samePip]
        exact indexed.inverse q s
    · intro q set there
      rw [getElem?_erase] at there
      split at there
      · cases there
      · exact indexed.filled q set there
  · refine ⟨⟨entry.shape, entry.slots.erase slot, entry.byPip.insert pip (filed.erase slot)⟩, ?_,
      rfl, slots, ?_, ?_⟩
    · simp only [remove, held, bind_eq_bind, bind_some, found, if_neg empty, pure_def]
    · intro q s
      rw [getElem?_insert]
      simp only [compare_eq_iff_eq]
      by_cases samePip : pip = q
      · subst samePip
        rw [same]
        simp only [if_pos, some.injEq, exists_eq_left']
      · rw [others q s samePip, if_neg samePip]
        exact indexed.inverse q s
    · intro q set there
      rw [getElem?_insert] at there
      split at there
      · cases there
        exact Std.TreeSet.isEmpty_eq_false_iff_exists_mem.mp (Bool.eq_false_iff.mpr empty)
      · exact indexed.filled q set there

theorem holds_of_removed {left : PoolEntry} {s : PoolSlot} (shape : left.shape = entry.shape)
    (slots : ∀ s : PoolSlot, left.slots[s]? = if slot = s then none else entry.slots[s]?) :
    left.Holds s unit ↔ entry.Holds s unit ∧ s ≠ slot := by
  rw [Holds, shape, slots, Holds]
  by_cases here : slot = s
  · simp [here]
  · simp [here, Ne.symm here]

theorem contains_byPip (indexed : Indexed entry) (pip : ManaPipId) :
    entry.byPip.contains pip ↔ ∃ slot : PoolSlot, entry.slots[slot]? = some pip := by
  rw [contains_iff_mem, mem_iff_isSome_getElem?, isSome_iff_exists]
  constructor
  · rintro ⟨held, found⟩
    obtain ⟨slot, mem⟩ := indexed.filled pip held found
    exact ⟨slot, (indexed.inverse pip slot).mp ⟨held, found, mem⟩⟩
  · rintro ⟨slot, there⟩
    obtain ⟨held, found, -⟩ := (indexed.inverse pip slot).mpr there
    exact ⟨held, found⟩

theorem firstSlotOf_eq_some (indexed : Indexed entry) :
    entry.firstSlotOf pip = some slot ↔ entry.slots[slot]? = some pip ∧
      ∀ s : PoolSlot, entry.slots[s]? = some pip → slot ≤ s := by
  have back (s : PoolSlot) := indexed.inverse pip s
  cases found : entry.byPip[pip]? with
  | none =>
    simp only [found, reduceCtorEq, false_and, exists_false, false_iff] at back
    simp [firstSlotOf, found, back]
  | some held =>
    simp [firstSlotOf, found, ← back, Std.TreeSet.min?_eq_some_iff_mem_and_forall, Nat.isLE_compare]

theorem firstSlotOf_eq_none (indexed : Indexed entry) :
    entry.firstSlotOf pip = none ↔ ∀ s : PoolSlot, entry.slots[s]? ≠ some pip := by
  constructor
  · intro none_ s there
    obtain ⟨held, found, mem⟩ := (indexed.inverse pip s).mpr there
    rw [firstSlotOf, found, bind_some, Std.TreeSet.min?_eq_none_iff,
      Std.TreeSet.isEmpty_iff_forall_not_mem] at none_
    exact none_ s mem
  · intro never
    cases found : entry.firstSlotOf pip with
    | none => rfl
    | some slot => exact absurd ((firstSlotOf_eq_some indexed).mp found).1 (never slot)

/-- Whether the entry holds anything. -/
def Filled (entry : PoolEntry) : Prop := ∃ (slot : PoolSlot) (pip : ManaPipId),
  entry.slots[slot]? = some pip

theorem mem_slots : slot ∈ entry.slots ↔ ∃ pip, entry.slots[slot]? = some pip := by
  rw [mem_iff_isSome_getElem?, isSome_iff_exists]

theorem Holds.mem (holds : entry.Holds slot unit) : slot ∈ entry.slots := mem_slots.mpr ⟨_, holds.2⟩

theorem holds_of_mem (mem : slot ∈ entry.slots) : ∃ unit, entry.Holds slot unit := by
  obtain ⟨pip, there⟩ := mem_slots.mp mem
  exact ⟨_, holds_withPip there⟩

theorem getElem?_eq_none_of_notMem (free : slot ∉ entry.slots) : entry.slots[slot]? = none := by
  rw [mem_slots] at free
  exact eq_none_iff_forall_ne_some.mpr fun pip there => free ⟨pip, there⟩

theorem isEmpty_slots : entry.slots.isEmpty = true ↔ ¬Filled entry := by
  simp only [isEmpty_iff_forall_not_mem, mem_slots, Filled, not_exists]

theorem minKey?_slots (filled : Filled entry) : ∃ slot pip, entry.slots.minKey? = some slot ∧
    entry.slots[slot]? = some pip ∧ ∀ (s : PoolSlot) q, entry.slots[s]? = some q → slot ≤ s := by
  cases found : entry.slots.minKey? with
  | none => exact absurd filled (isEmpty_slots.mp (minKey?_eq_none_iff.mp found))
  | some slot =>
    obtain ⟨mem, least⟩ := minKey?_eq_some_iff_mem_and_forall.mp found
    obtain ⟨pip, there⟩ := mem_slots.mp mem
    refine ⟨slot, pip, rfl, there, fun s q other => ?_⟩
    simpa [Nat.isLE_compare] using least s (mem_slots.mpr ⟨q, other⟩)

theorem maxKey?_slots (filled : Filled entry) : ∃ slot pip, entry.slots.maxKey? = some slot ∧
    entry.slots[slot]? = some pip ∧ ∀ (s : PoolSlot) q, entry.slots[s]? = some q → s ≤ slot := by
  cases found : entry.slots.maxKey? with
  | none => exact absurd filled (isEmpty_slots.mp (maxKey?_eq_none_iff.mp found))
  | some slot =>
    obtain ⟨mem, greatest⟩ := maxKey?_eq_some_iff_mem_and_forall.mp found
    obtain ⟨pip, there⟩ := mem_slots.mp mem
    refine ⟨slot, pip, rfl, there, fun s q other => ?_⟩
    simpa [Nat.isLE_compare] using greatest s (mem_slots.mpr ⟨q, other⟩)

end PoolEntry

end Phase.Mana
