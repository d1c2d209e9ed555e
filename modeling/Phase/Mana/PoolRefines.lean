import Phase.Mana.PoolChange
import Phase.Mana.PoolReads

/-! The mana pool and a plain list of units under the same operations. -/
namespace Phase.Mana
open List Fallible ManaPool

/-- The pool as a `Vec<ManaUnit>`, with the operations the mana pool must reproduce. -/
abbrev ReferencePool := List ManaUnit

namespace ReferencePool

def swapRemoveWhere (units : ReferencePool) (pred : ManaUnit → Bool) :
    Option (ManaUnit × ReferencePool) := do
  let position ← units.findIdx? pred
  Slotted.swapRemove units position

def removeExact (units : ReferencePool) :
    List ManaUnit → Except ExactManaRemovalError Unit × ReferencePool
  | [] => (.ok (), units)
  | unit :: rest =>
    match units.swapRemoveWhere fun held => held = unit with
    | some (_, units) => removeExact units rest
    | none =>
      if units.any fun held => held.pipId = unit.pipId then
        (.error (.mismatchedUnit unit.pipId), units)
      else (.error (.missingPip unit.pipId), units)

def spendGeneric (units : ReferencePool) (count : Nat) : Bool × ReferencePool :=
  if (units.countP fun unit => unit.restrictions.isEmpty) < count then (false, units)
  else (true, Slotted.retainAfter (fun unit => unit.restrictions.isEmpty) count units)

def spendFor (units : ReferencePool) (color : ManaType) (ctx : PaymentContext) :
    Option (ManaUnit × ReferencePool) :=
  (units.swapRemoveWhere fun unit => unrestrictedFor color ctx unit.toManaShape).or
    (units.swapRemoveWhere fun unit => restrictedFor color ctx unit.toManaShape)

end ReferencePool

/-- The operations on a pool. A slot handed to `swap_remove` or `set_pip_at` is one the pool
gave out, so it is named here by its position. -/
inductive PoolOp where
  | fromUnits (units : List ManaUnit)
  | add (unit : ManaUnit)
  | insertJournaled (unit : ManaUnit)
  | swapRemove (index : Nat)
  | removeAt (index : Nat)
  | recolorAt (index : Nat) (color : ManaType)
  | setPipAt (index : Nat) (pip : ManaPipId)
  | editShapes (edit : ManaShape → Option ManaShape)
  | retainShapes (keep : ManaShape → Bool)
  | clearExpiredRetentionMarkers (start : Option TurnPhase) (next : TurnPhase)
  | retainAcrossPhaseGroupSteps (start : Option TurnPhase) (next : TurnPhase)
  | clearExpiredEndOfTurnRetentionMarkers
  | removeFromSource (sourceId : ObjectId)
  | removeExact (units : List ManaUnit)
  | spend (color : ManaType)
  | spendFor (color : ManaType) (ctx : PaymentContext)
  | spendGeneric (count : Nat)
  | clear
  | markVerified
  | markUnverified

inductive PoolOutput where
  | done
  | unit (unit : Option ManaUnit)
  | color (color : Option ManaType)
  | removed (result : Except ExactManaRemovalError Unit)
  | spent (enough : Bool)
  | count (count : Nat)

/-- The only panic a caller can cause: a position past the end. -/
def outOfRange : String := "no unit at this position"

def ManaPool.step (pool : ManaPool) : PoolOp → Except String (PoolOutput × ManaPool)
  | .fromUnits units => return (.done, fromUnits units)
  | .add unit => return (.done, pool.add unit)
  | .insertJournaled unit => return (.done, pool.insertJournaled unit)
  | .swapRemove index => do
      let slot ← expect outOfRange (pool.nthSlot index)
      let (unit, pool) ← pool.swapRemove slot
      return (.unit (some unit), pool)
  | .removeAt index =>
    match pool.removeAt index with
    | some (unit, pool) => return (.unit (some unit), pool)
    | none => return (.unit none, pool)
  | .recolorAt index color =>
    match pool.recolorAt index color with
    | some (old, pool) => return (.color (some old), pool)
    | none => return (.color none, pool)
  | .setPipAt index pip => do
      let slot ← expect outOfRange (pool.nthSlot index)
      return (.done, ← pool.setPipAt slot pip)
  | .editShapes edit => return (.done, pool.editShapes edit)
  | .retainShapes keep => return (.done, pool.retainShapes keep)
  | .clearExpiredRetentionMarkers start next =>
    return (.done, pool.clearExpiredRetentionMarkers start next)
  | .retainAcrossPhaseGroupSteps start next =>
    return (.done, pool.retainAcrossPhaseGroupSteps start next)
  | .clearExpiredEndOfTurnRetentionMarkers =>
    return (.done, pool.clearExpiredEndOfTurnRetentionMarkers)
  | .removeFromSource sourceId =>
    let (count, pool) := pool.removeFromSource sourceId
    return (.count count, pool)
  | .removeExact units => do
      let (result, pool) ← pool.removeExact units
      return (.removed result, pool)
  | .spend color => do
      let (unit, pool) ← pool.spend color
      return (.unit unit, pool)
  | .spendFor color ctx => do
      let (unit, pool) ← pool.spendFor color ctx
      return (.unit unit, pool)
  | .spendGeneric count =>
    let (enough, pool) := pool.spendGeneric count
    return (.spent enough, pool)
  | .clear => return (.done, pool.clear)
  | .markVerified => return (.done, pool.markVerified)
  | .markUnverified => return (.done, pool.markUnverified)

/-- The same operations on the list; absent where `Vec` panics. -/
def ReferencePool.step (units : ReferencePool) : PoolOp → Option (PoolOutput × ReferencePool)
  | .fromUnits units => some (.done, units)
  | .add unit => some (.done, units ++ [unit])
  | .insertJournaled unit => some (.done, units ++ [unit])
  | .swapRemove index =>
    (Slotted.swapRemove units index).map fun (unit, units) => (.unit (some unit), units)
  | .removeAt index => some (.unit units[index]?, units.eraseIdx index)
  | .recolorAt index color =>
    match units[index]? with
    | some unit => some (.color (some unit.color), units.set index { unit with color })
    | none => some (.color none, units)
  | .setPipAt index pip =>
    units[index]?.map fun unit => (.done, units.set index { unit with pipId := pip })
  | .editShapes edit => some (.done, units.map (editUnit edit))
  | .retainShapes keep => some (.done, units.filter fun unit => keep unit.toManaShape)
  | .clearExpiredRetentionMarkers start next =>
    some (.done, units.map (editUnit (clearExpired start next)))
  | .retainAcrossPhaseGroupSteps start next =>
    some (.done, if leavingPhaseGroup start next then units
      else units.map (editUnit retainToPhaseGroup))
  | .clearExpiredEndOfTurnRetentionMarkers =>
    some (.done, units.map (editUnit clearEndOfTurn))
  | .removeFromSource sourceId =>
    some (.count (units.countP fun unit => unit.sourceId = sourceId),
      units.filter fun unit => unit.sourceId ≠ sourceId)
  | .removeExact exact =>
    let (result, units) := units.removeExact exact
    some (.removed result, units)
  | .spend color =>
    match units.swapRemoveWhere fun unit => unit.color = color with
    | some (unit, units) => some (.unit (some unit), units)
    | none => some (.unit none, units)
  | .spendFor color ctx =>
    match units.spendFor color ctx with
    | some (unit, units) => some (.unit (some unit), units)
    | none => some (.unit none, units)
  | .spendGeneric count =>
    let (enough, units) := units.spendGeneric count
    some (.spent enough, units)
  | .clear => some (.done, [])
  | .markVerified => some (.done, units)
  | .markUnverified => some (.done, units)

namespace ManaPool

variable {pool : ManaPool}

theorem push_units (sound : pool.Sound) (unit : ManaUnit) :
    (pool.pushMerged unit).units = pool.units ++ [unit] := by
  obtain ⟨sound', holds⟩ := pushMerged_spec sound unit
  have slotted : (pool.pushMerged unit).slottedUnits =
      pool.slottedUnits ++ [(pool.nextSlot, unit)] := by
    refine slottedUnits_eq sound' ((slottedUnits_ordered sound).concat unit ?_) fun s u => ?_
    · rintro ⟨s, u⟩ mem
      exact sound.slot_lt (mem_slottedUnits.mp mem)
    · simp [holds, mem_slottedUnits]
  simp [units, slotted]

theorem fromUnits_refines (given : List ManaUnit) :
    (fromUnits given).Sound ∧ (fromUnits given).units = given := by
  have pushed (given : List ManaUnit) (pool : ManaPool) (sound : pool.Sound) :
      (given.foldl pushMerged pool).Sound ∧
        (given.foldl pushMerged pool).units = pool.units ++ given := by
    induction given generalizing pool with
    | nil => simp [sound]
    | cons unit given ih =>
      obtain ⟨sound', same⟩ := ih (pool.pushMerged unit) (pushMerged_spec sound unit).1
      refine ⟨sound', ?_⟩
      rw [foldl_cons, same, push_units sound, append_assoc, singleton_append]
  obtain ⟨sound, same⟩ := pushed given {} SoundEntries.nil
  rw [fromUnits]
  split
  · exact ⟨sound, same⟩
  · exact ⟨sound, same⟩

variable {unit : ManaUnit} {index : Nat} {slot : PoolSlot} {p : ManaUnit → Bool}

/-- The slot and the unit at a position. -/
theorem slotted_at (at_ : pool.units[index]? = some unit) :
    ∃ slot, pool.slottedUnits[index]? = some (slot, unit) ∧ pool.nthSlot index = some slot ∧
      pool.Holds slot unit := by
  rw [units, getElem?_map] at at_
  obtain ⟨⟨slot, u⟩, found, rfl⟩ := Option.map_eq_some_iff.mp at_
  refine ⟨slot, found, ?_, mem_slottedUnits.mp (mem_of_getElem? found)⟩
  rw [nthSlot_eq, found]
  rfl

theorem nthSlot_none (none_ : pool.units[index]? = none) : pool.nthSlot index = none := by
  rw [units, getElem?_map, Option.map_eq_none_iff] at none_
  rw [nthSlot_eq, none_]
  rfl

section
variable (sound : pool.Sound)
include sound

theorem removeAt_refines (at_ : pool.units[index]? = some unit) :
    ∃ left, pool.removeAt index = some (unit, left) ∧ left.Sound ∧
      left.units = pool.units.eraseIdx index := by
  obtain ⟨slot, found, nth, holds⟩ := slotted_at at_
  obtain ⟨left, taken, sound', -, holds'⟩ := takeSlot_spec sound holds
  refine ⟨left, by simp [removeAt, nth, taken], sound', ?_⟩
  have ordered := slottedUnits_ordered sound
  have slotted : left.slottedUnits = pool.slottedUnits.eraseIdx index :=
    slottedUnits_eq sound' (ordered.eraseIdx index) fun s u => by
      rw [ordered.mem_eraseIdx found, mem_slottedUnits, holds']
  simp only [units, slotted, eraseIdx_map]

theorem swapRemove_refines (found : pool.slottedUnits[index]? = some (slot, unit)) :
    ∃ left, pool.swapRemove slot = .ok (unit, left) ∧ left.Sound ∧
      Slotted.swapRemove pool.units index = some (unit, left.units) := by
  have holds := mem_slottedUnits.mp (mem_of_getElem? found)
  obtain ⟨last, z, left, holdsLast, greatest, swapped, sound', holds'⟩ :=
    swapRemove_spec sound holds
  have ordered := slottedUnits_ordered sound
  have isLast : pool.slottedUnits.getLast? = some (last, z) := by
    cases final : pool.slottedUnits.getLast? with
    | none =>
      rw [getLast?_eq_none_iff.mp final] at found
      cases found
    | some x =>
      obtain ⟨s, u⟩ := x
      have holdsX := mem_slottedUnits.mp (mem_of_getLast? final)
      have le := ordered.le_last final (mem_slottedUnits.mpr holdsLast)
      obtain rfl : s = last := le_antisymm (greatest s u holdsX) le
      rw [HoldsIn.unique sound holdsX holdsLast]
  have slotted : left.slottedUnits = (pool.slottedUnits.set index (slot, z)).dropLast :=
    slottedUnits_eq sound' (ordered.swapRemove found z) fun s u => by
      rw [ordered.mem_swapRemove found isLast, mem_slottedUnits, holds', Prod.mk.injEq]
  refine ⟨left, swapped, sound', ?_⟩
  simp only [Slotted.swapRemove, units, getElem?_map, found, getLast?_map, isLast, slotted,
    map_dropLast, map_set, Option.map_some, Option.bind_eq_bind, Option.bind_some, Option.pure_def]

/-- A unit rewritten in place. -/
theorem set_units {pool' : ManaPool} (sound' : pool'.Sound) {new : ManaUnit}
    (found : pool.slottedUnits[index]? = some (slot, unit))
    (holds : ∀ s u, pool'.Holds s u ↔ (s = slot ∧ u = new) ∨ (pool.Holds s u ∧ s ≠ slot)) :
    pool'.units = pool.units.set index new := by
  have ordered := slottedUnits_ordered sound
  have slotted : pool'.slottedUnits = pool.slottedUnits.set index (slot, new) :=
    slottedUnits_eq sound' (ordered.set found new) fun s u => by
      rw [ordered.mem_set found, mem_slottedUnits, holds, Prod.mk.injEq]
  simp only [units, slotted, map_set]

theorem recolorAt_refines (at_ : pool.units[index]? = some unit) (color : ManaType) :
    ∃ pool', pool.recolorAt index color = some (unit.color, pool') ∧ pool'.Sound ∧
      pool'.units = pool.units.set index { unit with color } := by
  obtain ⟨slot, found, nth, holds⟩ := slotted_at at_
  obtain ⟨left, taken, soundLeft, nextLeft, holdsLeft⟩ := takeSlot_spec sound holds
  have free (u : ManaUnit) : ¬left.Holds slot u := fun h => ((holdsLeft slot u).mp h).2 rfl
  have below : slot < left.nextSlot := nextLeft ▸ sound.slot_lt holds
  have sound' := insertAt_sound soundLeft below free { unit.toManaShape with color } unit.pipId
  refine ⟨_, by simp [recolorAt, nth, taken], sound', set_units sound sound' found fun s u => ?_⟩
  rw [insertAt_holds free, holdsLeft]
  rfl

theorem setPipAt_refines (found : pool.slottedUnits[index]? = some (slot, unit)) (pip : ManaPipId) :
    ∃ pool', pool.setPipAt slot pip = .ok pool' ∧ pool'.Sound ∧
      pool'.units = pool.units.set index { unit with pipId := pip } := by
  have holds := mem_slottedUnits.mp (mem_of_getElem? found)
  obtain ⟨pool', rewritten, sound', holds'⟩ := setPipAt_spec sound holds pip
  exact ⟨pool', rewritten, sound', set_units sound sound' found holds'⟩

theorem editShapes_refines (edit : ManaShape → Option ManaShape) :
    (pool.editShapes edit).Sound ∧
      (pool.editShapes edit).units = pool.units.map (editUnit edit) := by
  obtain ⟨sound', holds⟩ := editShapes_spec sound edit
  have slotted : (pool.editShapes edit).slottedUnits =
      pool.slottedUnits.map fun x => (x.1, editUnit edit x.2) := by
    refine slottedUnits_eq sound' ((slottedUnits_ordered sound).map _) fun s u => ?_
    rw [holds, mem_map]
    constructor
    · rintro ⟨⟨t, v⟩, mem, same⟩
      cases same
      exact ⟨v, mem_slottedUnits.mp mem, rfl⟩
    · rintro ⟨v, holdsV, rfl⟩
      exact ⟨(s, v), mem_slottedUnits.mpr holdsV, rfl⟩
  refine ⟨sound', ?_⟩
  rw [units, units, slotted, map_map, map_map]
  rfl

theorem retainShapes_refines (keep : ManaShape → Bool) :
    (pool.retainShapes keep).Sound ∧
      (pool.retainShapes keep).units = pool.units.filter fun unit => keep unit.toManaShape := by
  obtain ⟨sound', holds⟩ := retainShapes_spec sound keep
  have slotted : (pool.retainShapes keep).slottedUnits =
      pool.slottedUnits.filter fun x => keep x.2.toManaShape :=
    slottedUnits_eq sound' ((slottedUnits_ordered sound).filter _) fun s u => by
      rw [holds, mem_filter, mem_slottedUnits]
  refine ⟨sound', ?_⟩
  rw [units, units, slotted, filter_map]
  rfl

theorem removeFromSource_refines (sourceId : ObjectId) :
    (pool.removeFromSource sourceId).1 = pool.units.countP (fun unit => unit.sourceId = sourceId) ∧
      (pool.removeFromSource sourceId).2.Sound ∧
      (pool.removeFromSource sourceId).2.units =
        pool.units.filter fun unit => unit.sourceId ≠ sourceId := by
  obtain ⟨sound', units'⟩ := retainShapes_refines sound fun shape => shape.sourceId ≠ sourceId
  refine ⟨?_, sound', units'⟩
  have split := length_eq_countP_add_countP (fun unit : ManaUnit => unit.sourceId = sourceId)
    (l := pool.units)
  have kept : (pool.units.filter fun unit => unit.sourceId ≠ sourceId).length =
      pool.units.countP fun unit => ¬(decide (unit.sourceId = sourceId) = true) := by
    simp [countP_eq_length_filter]
  rw [removeFromSource, total, total, countWhere_eq sound, countWhere_eq sound', units',
    countP_true]
  omega

theorem takeSlots_spec {slots : List PoolSlot} (distinct : slots.Nodup)
    (held : ∀ s ∈ slots, ∃ u, pool.Holds s u) :
    let left := slots.foldl (fun pool slot => ((pool.takeSlot slot).map Prod.snd).getD pool) pool
    left.Sound ∧ ∀ s u, left.Holds s u ↔ pool.Holds s u ∧ s ∉ slots := by
  induction slots generalizing pool with
  | nil => exact ⟨sound, by simp⟩
  | cons slot slots ih =>
    obtain ⟨notLater, distinct⟩ := nodup_cons.mp distinct
    obtain ⟨unit, holds⟩ := held slot mem_cons_self
    obtain ⟨left, taken, soundLeft, -, holdsLeft⟩ := takeSlot_spec sound holds
    have heldLeft : ∀ s ∈ slots, ∃ u, left.Holds s u := by
      intro s mem
      obtain ⟨u, holdsU⟩ := held s (mem_cons_of_mem _ mem)
      exact ⟨u, (holdsLeft s u).mpr ⟨holdsU, fun same => notLater (same ▸ mem)⟩⟩
    obtain ⟨sound', holds'⟩ := ih soundLeft distinct heldLeft
    simp only [foldl_cons, taken, Option.map_some, Option.getD_some]
    refine ⟨sound', fun s u => ?_⟩
    rw [holds', holdsLeft, mem_cons, not_or, and_assoc]

/-- The slots that `spend_generic` sorts are the unrestricted units' slots in pool order. -/
theorem unrestricted_slots (pred : ManaShape → Bool) :
    ((pool.entries.filter fun entry => pred entry.shape).flatMap fun entry =>
        entry.slots.keys).insertionSort (· ≤ ·) =
      (pool.slottedUnits.filter fun x => pred x.2.toManaShape).map Prod.fst := by
  have ordered := (slottedUnits_ordered sound).filter fun x => pred x.2.toManaShape
  have distinct : ((pool.entries.filter fun entry => pred entry.shape).flatMap fun entry =>
      entry.slots.keys).Nodup := by
    refine nodup_flatMap.mpr ⟨fun entry _ => entry.slots.nodup_keys, ?_⟩
    refine (sound.sublist filter_sublist).apart.imp fun {a b} apart s memA memB => ?_
    exact apart.2 s (Std.TreeMap.mem_keys.mp memA) (Std.TreeMap.mem_keys.mp memB)
  refine Perm.eq_of_pairwise (fun a b _ _ ab ba => le_antisymm ab ba)
    (pairwise_insertionSort (· ≤ ·) _)
    ((Slotted.ordered_iff_slots.mp ordered).imp le_of_lt)
    ((perm_insertionSort _ _).trans ((perm_ext_iff_of_nodup distinct
      ((Slotted.ordered_iff_slots.mp ordered).imp ne_of_lt)).mpr fun s => ?_))
  simp only [mem_flatMap, mem_filter, mem_map]
  constructor
  · rintro ⟨entry, ⟨mem, passes⟩, there⟩
    obtain ⟨u, holds⟩ := PoolEntry.holds_of_mem (Std.TreeMap.mem_keys.mp there)
    exact ⟨(s, u), ⟨mem_slottedUnits.mpr ⟨entry, mem, holds⟩, holds.1 ▸ passes⟩, rfl⟩
  · rintro ⟨⟨t, u⟩, ⟨mem, passes⟩, rfl⟩
    obtain ⟨entry, memE, holds⟩ := mem_slottedUnits.mp mem
    exact ⟨entry, ⟨memE, holds.1.symm ▸ passes⟩, Std.TreeMap.mem_keys.mpr holds.mem⟩

theorem spendGeneric_refines (count : Nat) :
    (pool.spendGeneric count).1 = (ReferencePool.spendGeneric pool.units count).1 ∧
      (pool.spendGeneric count).2.Sound ∧
      (pool.spendGeneric count).2.units = (ReferencePool.spendGeneric pool.units count).2 := by
  rw [spendGeneric, ReferencePool.spendGeneric, countWhere_eq sound]
  split
  · exact ⟨rfl, sound, rfl⟩
  · have ordered := slottedUnits_ordered sound
    simp only [unrestricted_slots sound fun shape => shape.restrictions.isEmpty]
    set slots := (pool.slottedUnits.filter fun x => x.2.restrictions.isEmpty).map Prod.fst
    have distinct : (slots.take count).Nodup := Nodup.sublist (take_sublist _ _)
      ((Slotted.ordered_iff_slots.mp (ordered.filter _)).imp ne_of_lt)
    have held : ∀ s ∈ slots.take count, ∃ u, pool.Holds s u := by
      intro s mem
      obtain ⟨⟨t, u⟩, memX, rfl⟩ := mem_map.mp (mem_of_mem_take mem)
      exact ⟨u, mem_slottedUnits.mp (mem_of_mem_filter memX)⟩
    obtain ⟨sound', holds'⟩ := takeSlots_spec sound distinct held
    refine ⟨trivial, sound', ?_⟩
    have slotted := slottedUnits_eq sound'
      (ordered.filter fun x => x.1 ∉ slots.take count) fun s u => by
        rw [mem_filter, mem_slottedUnits, holds', decide_eq_true_eq]
    rw [units, slotted, ordered.filter_take fun unit => unit.restrictions.isEmpty]
    rfl

end

/-- A scan of the slotted units finds the position a scan of the units finds. -/
theorem find_slotted (found : (pool.slottedUnits.find? fun x => p x.2) = some (slot, unit)) :
    ∃ index, pool.units.findIdx? p = some index ∧
      pool.slottedUnits[index]? = some (slot, unit) := by
  rw [find?_eq_bind_findIdx?_getElem?] at found
  obtain ⟨index, isIndex, at_⟩ := Option.bind_eq_some_iff.mp found
  refine ⟨index, ?_, at_⟩
  rw [units, findIdx?_map]
  exact isIndex

theorem find_slotted_none (none_ : (pool.slottedUnits.find? fun x => p x.2) = none) :
    ReferencePool.swapRemoveWhere pool.units p = none := by
  have absent : pool.units.findIdx? p = none := by
    rw [units, findIdx?_map, findIdx?_eq_none_iff]
    intro x mem
    have fails := find?_eq_none.mp none_ x mem
    simpa using fails
  rw [ReferencePool.swapRemoveWhere, absent]
  rfl

theorem swapRemoveWhere_refines (sound : pool.Sound)
    (found : (pool.slottedUnits.find? fun x => p x.2) = some (slot, unit)) :
    ∃ left, pool.swapRemove slot = .ok (unit, left) ∧ left.Sound ∧
      ReferencePool.swapRemoveWhere pool.units p = some (unit, left.units) := by
  obtain ⟨index, isIndex, at_⟩ := find_slotted found
  obtain ⟨left, swapped, sound', list⟩ := swapRemove_refines sound at_
  refine ⟨left, swapped, sound', ?_⟩
  rw [ReferencePool.swapRemoveWhere, isIndex]
  exact list

/-- The slot that `remove_exact` removes is the first that holds the unit. -/
theorem exactSlot_eq (sound : pool.Sound) (unit : ManaUnit) :
    ((pool.entries.filter fun entry => entry.shape = unit.toManaShape).findSome? fun entry =>
        entry.firstSlotOf unit.pipId) =
      (pool.slottedUnits.find? fun x => x.2 = unit).map Prod.fst := by
  have ordered := slottedUnits_ordered sound
  cases isSlot : (pool.entries.filter fun entry =>
      entry.shape = unit.toManaShape).findSome? fun entry => entry.firstSlotOf unit.pipId with
  | none =>
    have none_ : (pool.slottedUnits.find? fun x => x.2 = unit) = none := by
      refine find?_eq_none.mpr fun x mem same => ?_
      obtain ⟨entry, memE, shape, there⟩ := mem_slottedUnits.mp (show (x.1, x.2) ∈ _ from mem)
      have same : x.2 = unit := by simpa using same
      rw [same] at shape there
      have noPip := findSome?_eq_none_iff.mp isSlot entry
        (mem_filter.mpr ⟨memE, by simpa using shape⟩)
      exact (PoolEntry.firstSlotOf_eq_none (sound.indexed entry memE)).mp noPip x.1 there
    rw [none_]
    rfl
  | some slot =>
    obtain ⟨entry, memF, isFirst⟩ := exists_of_findSome?_eq_some isSlot
    obtain ⟨mem, shape⟩ := mem_filter.mp memF
    have shape : entry.shape = unit.toManaShape := by simpa using shape
    obtain ⟨there, least⟩ :=
      (PoolEntry.firstSlotOf_eq_some (sound.indexed entry mem)).mp isFirst
    have stops := ordered.find?_eq_some (p := fun x => x.2 = unit) (x := (slot, unit))
      (mem_slottedUnits.mpr ⟨entry, mem, shape, there⟩) (by simp) (by
        rintro ⟨t, v⟩ memV same
        obtain rfl : v = unit := by simpa using same
        obtain ⟨other, memO, shapeO, thereO⟩ := mem_slottedUnits.mp memV
        obtain rfl := sound.same_shape memO mem (shapeO.trans shape.symm)
        exact least t thereO)
    rw [stops]
    rfl

theorem removeExact_refines (sound : pool.Sound) (exact : List ManaUnit) :
    ∃ left, pool.removeExact exact =
        .ok ((ReferencePool.removeExact pool.units exact).1, left) ∧ left.Sound ∧
      left.units = (ReferencePool.removeExact pool.units exact).2 := by
  induction exact generalizing pool with
  | nil => exact ⟨pool, rfl, sound, rfl⟩
  | cons unit exact ih =>
    rw [removeExact, ReferencePool.removeExact]
    simp only [exactSlot_eq sound]
    cases found : pool.slottedUnits.find? fun x => x.2 = unit with
    | none =>
      have absent := find_slotted_none (p := fun held => held = unit) found
      simp only [absent, Option.map_none, containsPip_eq sound]
      split
      · exact ⟨pool, rfl, sound, rfl⟩
      · exact ⟨pool, rfl, sound, rfl⟩
    | some x =>
      obtain ⟨left, swapped, soundLeft, list⟩ := swapRemoveWhere_refines sound
        (p := fun held => held = unit) found
      simp only [Option.map_some, swapped, list, ok_bind]
      exact ih soundLeft

theorem spend_refines (sound : pool.Sound) (pred : ManaShape → Bool) :
    (∃ left unit slot, pool.firstWhere pred = .ok (some (slot, unit.toManaShape)) ∧
      pool.swapRemove slot = .ok (unit, left) ∧ left.Sound ∧
      ReferencePool.swapRemoveWhere pool.units (fun unit => pred unit.toManaShape) =
        some (unit, left.units)) ∨
    (pool.firstWhere pred = .ok none ∧
      ReferencePool.swapRemoveWhere pool.units (fun unit => pred unit.toManaShape) = none) := by
  rw [firstWhere_eq sound]
  cases found : pool.slottedUnits.find? fun x => pred x.2.toManaShape with
  | none => exact .inr ⟨rfl, find_slotted_none found⟩
  | some x =>
    obtain ⟨left, swapped, soundLeft, list⟩ := swapRemoveWhere_refines sound
      (p := fun unit => pred unit.toManaShape) found
    exact .inl ⟨left, x.2, x.1, rfl, swapped, soundLeft, list⟩

/-- The pool's side of an operation did what the list's side did. -/
def Agrees (result : Except String (PoolOutput × ManaPool)) :
    Option (PoolOutput × ReferencePool) → Prop
  | none => result = .error outOfRange
  | some (output, units) => ∃ pool, result = .ok (output, pool) ∧ pool.Sound ∧ pool.units = units

theorem step_agrees (sound : pool.Sound) (op : PoolOp) :
    Agrees (pool.step op) (ReferencePool.step pool.units op) := by
  cases op with
  | fromUnits units =>
    obtain ⟨sound', same⟩ := fromUnits_refines units
    exact ⟨_, rfl, sound', same⟩
  | add unit => exact ⟨_, rfl, (pushMerged_spec sound unit).1, push_units sound unit⟩
  | insertJournaled unit => exact ⟨_, rfl, (pushMerged_spec sound unit).1, push_units sound unit⟩
  | swapRemove index =>
    simp only [step, ReferencePool.step]
    cases at_ : pool.units[index]? with
    | none =>
      simp only [nthSlot_none at_, Slotted.swapRemove, at_]
      rfl
    | some unit =>
      obtain ⟨slot, found, nth, -⟩ := slotted_at at_
      obtain ⟨left, swapped, sound', list⟩ := swapRemove_refines sound found
      simp only [nth, swapped, list, expect_some, ok_bind]
      exact ⟨left, rfl, sound', rfl⟩
  | removeAt index =>
    simp only [step, ReferencePool.step]
    cases at_ : pool.units[index]? with
    | none =>
      have absent : pool.removeAt index = none := by simp [removeAt, nthSlot_none at_]
      rw [absent, eraseIdx_of_length_le (getElem?_eq_none_iff.mp at_)]
      exact ⟨pool, rfl, sound, rfl⟩
    | some unit =>
      obtain ⟨left, removed, sound', list⟩ := removeAt_refines sound at_
      rw [removed]
      exact ⟨left, rfl, sound', list⟩
  | recolorAt index color =>
    simp only [step, ReferencePool.step]
    cases at_ : pool.units[index]? with
    | none =>
      have absent : pool.recolorAt index color = none := by
        simp [recolorAt, nthSlot_none at_]
      rw [absent]
      exact ⟨pool, rfl, sound, rfl⟩
    | some unit =>
      obtain ⟨left, recolored, sound', list⟩ := recolorAt_refines sound at_ color
      rw [recolored]
      exact ⟨left, rfl, sound', list⟩
  | setPipAt index pip =>
    simp only [step, ReferencePool.step]
    cases at_ : pool.units[index]? with
    | none =>
      simp only [nthSlot_none at_]
      rfl
    | some unit =>
      obtain ⟨slot, found, nth, -⟩ := slotted_at at_
      obtain ⟨left, rewritten, sound', list⟩ := setPipAt_refines sound found pip
      simp only [nth, rewritten, expect_some, ok_bind]
      exact ⟨left, rfl, sound', list⟩
  | editShapes edit => exact ⟨_, rfl, editShapes_refines sound edit⟩
  | retainShapes keep => exact ⟨_, rfl, retainShapes_refines sound keep⟩
  | clearExpiredRetentionMarkers start next => exact ⟨_, rfl, editShapes_refines sound _⟩
  | retainAcrossPhaseGroupSteps start next =>
    simp only [step, ReferencePool.step, retainAcrossPhaseGroupSteps]
    split
    · exact ⟨pool, rfl, sound, rfl⟩
    · exact ⟨_, rfl, editShapes_refines sound _⟩
  | clearExpiredEndOfTurnRetentionMarkers => exact ⟨_, rfl, editShapes_refines sound _⟩
  | removeFromSource sourceId =>
    obtain ⟨count, sound', list⟩ := removeFromSource_refines sound sourceId
    simp only [step, ReferencePool.step, count]
    exact ⟨_, rfl, sound', list⟩
  | removeExact exact =>
    obtain ⟨left, removed, sound', list⟩ := removeExact_refines sound exact
    simp only [step, ReferencePool.step, removed, ok_bind]
    exact ⟨left, rfl, sound', list⟩
  | spend color =>
    simp only [step, ReferencePool.step, spend]
    rcases spend_refines sound fun shape => shape.color = color with
      ⟨left, unit, slot, found, swapped, sound', list⟩ | ⟨none_, list⟩
    · simp only [found, swapped, list, ok_bind]
      exact ⟨left, rfl, sound', rfl⟩
    · simp only [none_, list, ok_bind]
      exact ⟨pool, rfl, sound, rfl⟩
  | spendFor color ctx =>
    simp only [step, ReferencePool.step, spendFor, ReferencePool.spendFor]
    rcases spend_refines sound (unrestrictedFor color ctx) with
      ⟨left, unit, slot, found, swapped, sound', list⟩ | ⟨none_, list⟩
    · simp only [found, list, ok_bind, pure_bind, swapped, Option.some_or]
      exact ⟨left, rfl, sound', rfl⟩
    · rcases spend_refines sound (restrictedFor color ctx) with
        ⟨left, unit, slot, found, swapped, sound', list'⟩ | ⟨none', list'⟩
      · simp only [none_, found, list, list', ok_bind, swapped, Option.none_or]
        exact ⟨left, rfl, sound', rfl⟩
      · simp only [none_, none', list, list', ok_bind, Option.none_or]
        exact ⟨pool, rfl, sound, rfl⟩
  | spendGeneric count =>
    obtain ⟨enough, sound', list⟩ := spendGeneric_refines sound count
    simp only [step, ReferencePool.step, enough]
    exact ⟨_, rfl, sound', list⟩
  | clear =>
    have empty : pool.clear.units = [] := by simp [units, slottedUnits, ordered, clear]
    exact ⟨_, rfl, SoundEntries.nil, empty⟩
  | markVerified => exact ⟨_, rfl, sound, rfl⟩
  | markUnverified => exact ⟨_, rfl, sound, rfl⟩

def run (pool : ManaPool) : List PoolOp → Except String (List PoolOutput × ManaPool)
  | [] => return ([], pool)
  | op :: ops => do
      let (output, pool) ← pool.step op
      let (outputs, pool) ← pool.run ops
      return (output :: outputs, pool)

end ManaPool

def ReferencePool.run (units : ReferencePool) :
    List PoolOp → Option (List PoolOutput × ReferencePool)
  | [] => return ([], units)
  | op :: ops => do
      let (output, units) ← units.step op
      let (outputs, units) ← units.run ops
      return (output :: outputs, units)

namespace ManaPool

theorem run_agrees {pool : ManaPool} (sound : pool.Sound) (ops : List PoolOp) :
    match ReferencePool.run pool.units ops with
    | none => pool.run ops = .error outOfRange
    | some (outputs, units) =>
      ∃ final, pool.run ops = .ok (outputs, final) ∧ final.Sound ∧ final.units = units := by
  induction ops generalizing pool with
  | nil => exact ⟨pool, rfl, sound, rfl⟩
  | cons op ops ih =>
    have first := step_agrees sound op
    rw [run, ReferencePool.run]
    cases list : ReferencePool.step pool.units op with
    | none =>
      rw [list] at first
      rw [first]
      rfl
    | some result =>
      obtain ⟨output, units⟩ := result
      rw [list] at first
      obtain ⟨pool', stepped, sound', rfl⟩ := first
      have rest := ih sound'
      rw [stepped, ok_bind]
      simp only [Option.bind_eq_bind, Option.bind_some]
      cases listRest : ReferencePool.run pool'.units ops with
      | none =>
        rw [listRest] at rest
        rw [rest]
        rfl
      | some result =>
        rw [listRest] at rest
        obtain ⟨final, ran, soundFinal, list⟩ := rest
        rw [ran]
        exact ⟨final, rfl, soundFinal, list⟩

/-- The slots in pool order. -/
def slots (pool : ManaPool) : List PoolSlot := pool.slottedUnits.map Prod.fst

/-- The pool answers every read as a scan of the reference list from its first unit does. -/
structure AnswersAs (pool : ManaPool) (reference : ReferencePool) : Prop where
  units : pool.units = reference
  unitAt : ∀ index, pool.unitAt index = reference[index]?
  firstWhere : ∀ pred, pool.firstWhere pred =
    .ok (((pool.slots.zip reference).find? fun x => pred x.2.toManaShape).map fun x =>
      (x.1, x.2.toManaShape))
  firstPinnedWhere : ∀ pins pred, pool.firstPinnedWhere pins pred =
    ((pool.slots.zip reference).find? fun x => x.2.pipId ∈ pins && pred x.2.toManaShape).map
      fun x => (x.1, x.2.toManaShape)
  unitByPip : ∀ pip, pool.unitByPip pip = reference.find? fun unit => unit.pipId = pip
  shapeOfPip : ∀ pip, pool.shapeOfPip pip =
    (reference.find? fun unit => unit.pipId = pip).map fun unit => unit.toManaShape
  containsPip : ∀ pip, pool.containsPip pip = reference.any fun unit => unit.pipId = pip
  countWhere : ∀ pred, pool.countWhere pred = reference.countP fun unit => pred unit.toManaShape
  isEmpty : pool.isEmpty = reference.isEmpty

theorem Sound.answersAs {pool : ManaPool} (sound : pool.Sound) : AnswersAs pool pool.units := by
  have zipped : pool.slots.zip pool.units = pool.slottedUnits := by
    have rezipped := zip_unzip pool.slottedUnits
    rw [unzip_eq_map] at rezipped
    exact rezipped
  refine ⟨rfl, unitAt_eq, ?_, ?_, unitByPip_eq sound, shapeOfPip_eq sound, containsPip_eq sound,
    countWhere_eq sound, isEmpty_eq sound⟩
  · rw [zipped]
    exact firstWhere_eq sound
  · rw [zipped]
    exact firstPinnedWhere_eq sound

/-- Whatever is done to an empty pool, it is what the same operations make of a list of units:
the outputs agree, every read is a scan of the list, and the representation stays sound. A run
panics only where the list's does, at a position past the end. -/
theorem pool_refines_unit_list (ops : List PoolOp) :
    match ReferencePool.run [] ops with
    | none => run {} ops = .error outOfRange
    | some (outputs, units) =>
      ∃ pool, run {} ops = .ok (outputs, pool) ∧ pool.Sound ∧ pool.AnswersAs units := by
  have soundEmpty : Sound {} := SoundEntries.nil
  have agrees := run_agrees soundEmpty ops
  have empty : units {} = [] := by simp [units, slottedUnits, ordered]
  rw [empty] at agrees
  split
  · next list =>
    rw [list] at agrees
    exact agrees
  · next outputs units list =>
    rw [list] at agrees
    obtain ⟨pool, ran, sound, rfl⟩ := agrees
    exact ⟨pool, ran, sound, sound.answersAs⟩

/-- A unit that has not been stamped is filed under pip `0` as any other is. -/
theorem unstamped_unit_is_indexed :
    ∃ pool, run {} [.add { color := .red, sourceId := 1, pipId := 0 }] = .ok ([.done], pool) ∧
      ¬∀ entry ∈ pool.entries, ∀ (pip : ManaPipId) (slot : PoolSlot),
        (∃ held, entry.byPip[pip]? = some held ∧ slot ∈ held) ↔
          entry.slots[slot]? = some pip ∧ pip ≠ 0 := by
  refine ⟨_, rfl, fun inverse => ?_⟩
  have indexed : (PoolEntry.insert ⟨{ color := .red, sourceId := 1 }, {}, {}⟩ 0 0).Indexed :=
    (PoolEntry.indexed_empty _).insert (by simp) 0
  have filed := (indexed.inverse 0 0).mpr (PoolEntry.insert_slots 0 0 0)
  exact ((inverse _ (mem_singleton.mpr rfl) 0 0).mp filed).2 rfl

end ManaPool

end Phase.Mana
