import Phase.Mana.PoolSound

/-! Changes that refile units: moving the last unit into a gap, rewriting a pip, editing the
shapes and dropping some of them. -/
namespace Phase.Mana
open List PoolEntry

namespace ManaPool

variable {pool : ManaPool} {slot : PoolSlot} {unit : ManaUnit}

theorem Sound.slot_lt (sound : pool.Sound) (holds : pool.Holds slot unit) :
    slot < pool.nextSlot := by
  obtain ⟨entry, mem, there⟩ := holds
  exact sound.below entry mem slot there.mem

/-- Filing a unit's slot elsewhere in its entry, under a pip of choice. -/
theorem refile_spec (sound : pool.Sound) {source target : PoolSlot}
    (holds : pool.Holds source unit) (below : target < pool.nextSlot)
    (free : target = source ∨ ∀ u, ¬pool.Holds target u) (pip : ManaPipId) :
    ∃ before entry after left, pool.entries = before ++ entry :: after ∧
      pool.entryOfSlot source = some before.length ∧
      entry.remove source = some (unit.pipId, left) ∧
      SoundEntries (before ++ left.insert target pip :: after) pool.nextSlot ∧
      ∀ s u, HoldsIn (before ++ left.insert target pip :: after) s u ↔
        (s = target ∧ u = unit.toManaShape.withPip pip) ∨ (pool.Holds s u ∧ s ≠ source) := by
  obtain ⟨before, entry, after, split, found, there⟩ := entryOfSlot_split sound holds
  have mem : entry ∈ pool.entries := by simp [split]
  obtain ⟨left, removed, shape, slots, indexed⟩ :=
    remove_eq (sound.indexed entry mem) there.2
  have sound' : SoundEntries (before ++ entry :: after) pool.nextSlot := split ▸ sound
  have holdsLeft {s : PoolSlot} {u : ManaUnit} :
      left.Holds s u ↔ entry.Holds s u ∧ s ≠ source := holds_of_removed shape slots
  have unheld : target ∉ left.slots := by
    intro held
    obtain ⟨u, holdsU⟩ := holds_of_mem held
    obtain ⟨holdsE, other⟩ := holdsLeft.mp holdsU
    rcases free with same | free
    · exact other same
    · exact free u ⟨entry, mem, holdsE⟩
  refine ⟨before, entry, after, left, split, found, removed, ?_, ?_⟩
  · refine sound'.replace shape (indexed.insert (getElem?_eq_none_of_notMem unheld) pip)
      ⟨target, pip, by simp [insert_slots]⟩ ?_
    intro s held
    obtain ⟨u, holdsU⟩ := holds_of_mem held
    rcases insert_holds.mp holdsU with ⟨rfl, -⟩ | ⟨-, old⟩
    · rcases free with rfl | free
      · exact .inl there.mem
      · refine .inr ⟨below, fun other later => not_mem_of_free free ?_⟩
        rw [split]
        exact perm_middle.mem_iff.mpr (mem_cons_of_mem _ later)
    · exact .inl (holdsLeft.mp old).1.mem
  · intro s u
    have elsewhere (rest : HoldsIn (before ++ after) s u) : s ≠ source :=
      rest.elsewhere sound' there.mem
    have kept (holdsE : entry.Holds s u) (other : s ≠ source) : s ≠ target := by
      rintro rfl
      exact unheld (holdsLeft.mpr ⟨holdsE, other⟩).mem
    simp only [Holds, split, holdsIn_middle, insert_holds, holdsLeft, shape, there.1]
    constructor
    · rintro ((new | ⟨-, old⟩) | rest)
      · exact .inl new
      · exact .inr ⟨.inl old.1, old.2⟩
      · exact .inr ⟨.inr rest, elsewhere rest⟩
    · rintro (new | ⟨(old | rest), other⟩)
      · exact .inl (.inl new)
      · exact .inl (.inr ⟨kept old other, old, other⟩)
      · exact .inr rest

section
variable (sound : pool.Sound) (holds : pool.Holds slot unit)
include sound holds

theorem setPipAt_spec (pip : ManaPipId) :
    ∃ pool', pool.setPipAt slot pip = .ok pool' ∧ pool'.Sound ∧ ∀ s u, pool'.Holds s u ↔
      (s = slot ∧ u = unit.toManaShape.withPip pip) ∨ (pool.Holds s u ∧ s ≠ slot) := by
  obtain ⟨before, entry, after, left, split, found, removed, sound', holds'⟩ :=
    refile_spec sound holds (sound.slot_lt holds) (.inl rfl) pip
  refine ⟨{ pool with entries := before ++ left.insert slot pip :: after,
                      provenance := .unverified }, ?_, sound', holds'⟩
  simp only [setPipAt, found, Fallible.expect_some, Fallible.ok_bind, split,
    Indexed.modify_middle, removed, Option.map_some, Option.getD_some]
  rfl

/-- The last slot of all entries. -/
theorem lasts_max :
    ∃ lasts last z, (pool.entries.mapM fun entry =>
        Fallible.expect "a pool entry is never empty" entry.slots.maxKey?) = .ok lasts ∧
      lasts.max? = some last ∧ pool.Holds last z ∧ ∀ s u, pool.Holds s u → s ≤ last := by
  have maxKey (entry) (mem : entry ∈ pool.entries) :=
    maxKey?_slots (sound.filled entry mem)
  have lasts : (pool.entries.mapM fun entry =>
      Fallible.expect "a pool entry is never empty" entry.slots.maxKey?) =
        .ok (pool.entries.map fun entry => entry.slots.maxKey?.getD 0) := by
    refine Fallible.mapM_eq_ok fun entry mem => ?_
    obtain ⟨s, q, isMax, -⟩ := maxKey entry mem
    simp [isMax]
  refine ⟨pool.entries.map fun entry => entry.slots.maxKey?.getD 0, ?_⟩
  obtain ⟨held, memHeld, -⟩ := holds
  cases isLast : (pool.entries.map fun entry => entry.slots.maxKey?.getD 0).max? with
  | none =>
    rw [max?_eq_none_iff, map_eq_nil_iff] at isLast
    simp [isLast] at memHeld
  | some last =>
    obtain ⟨mem, greatest⟩ := max?_eq_some_iff.mp isLast
    obtain ⟨entry, memE, atE⟩ := mem_map.mp mem
    obtain ⟨s, q, isMax, there, -⟩ := maxKey entry memE
    rw [isMax] at atE
    subst atE
    refine ⟨s, entry.shape.withPip q, lasts, rfl, ⟨entry, memE, rfl, there⟩, ?_⟩
    rintro t u ⟨other, memO, holdsO⟩
    obtain ⟨s', q', isMax', -, above⟩ := maxKey other memO
    have le := greatest s' (mem_map.mpr ⟨other, memO, by rw [isMax', Option.getD_some]⟩)
    exact (above t _ holdsO.2).trans le

theorem swapRemove_spec :
    ∃ last z pool', pool.Holds last z ∧ (∀ s u, pool.Holds s u → s ≤ last) ∧
      pool.swapRemove slot = .ok (unit, pool') ∧ pool'.Sound ∧
      ∀ s u, pool'.Holds s u ↔ ((s = slot ∧ u = z) ∨ (pool.Holds s u ∧ s ≠ slot)) ∧ s ≠ last := by
  obtain ⟨lasts, last, z, mapped, isMax, holdsLast, greatest⟩ := lasts_max sound holds
  obtain ⟨left, taken, soundLeft, nextLeft, holdsLeft⟩ := takeSlot_spec sound holds
  refine ⟨last, z, ?_⟩
  by_cases same : last = slot
  · refine ⟨left, holdsLast, greatest, ?_, soundLeft, ?_⟩
    · simp only [swapRemove, mapped, isMax, taken, Fallible.expect_some, Fallible.ok_bind,
        if_pos same]
      rfl
    · intro s u
      rw [holdsLeft, same]
      tauto
  · have holdsLast' : left.Holds last z := (holdsLeft last z).mpr ⟨holdsLast, same⟩
    have free (u : ManaUnit) : ¬left.Holds slot u := fun h => ((holdsLeft slot u).mp h).2 rfl
    have below : slot < left.nextSlot := nextLeft ▸ sound.slot_lt holds
    obtain ⟨before, entry, after, rest, split, found, removed, sound', holds'⟩ :=
      refile_spec soundLeft holdsLast' below (.inr free) z.pipId
    refine ⟨{ left with entries := before ++ rest.insert slot z.pipId :: after }, holdsLast,
      greatest, ?_, sound', ?_⟩
    · simp only [swapRemove, mapped, isMax, taken, Fallible.expect_some, Fallible.ok_bind,
        if_neg same, found, split, Indexed.getElem?_middle, Option.bind_some, removed,
        Indexed.set_middle]
      rfl
    · intro s u
      rw [Holds, holds', holdsLeft]
      constructor
      · rintro (⟨rfl, rfl⟩ | ⟨⟨old, other⟩, notLast⟩)
        · exact ⟨.inl ⟨rfl, rfl⟩, fun h => same h.symm⟩
        · exact ⟨.inr ⟨old, other⟩, notLast⟩
      · rintro ⟨(new | old), notLast⟩
        · exact .inl new
        · exact .inr ⟨old, notLast⟩

end

variable {entry : PoolEntry} {merged : List PoolEntry}

theorem insertAll_spec (indexed : entry.Indexed) {items : List (PoolSlot × ManaPipId)}
    (distinct : items.Pairwise fun a b => a.1 ≠ b.1) (free : ∀ item ∈ items, item.1 ∉ entry.slots) :
    (items.foldl (fun kept (slot, pip) => kept.insert slot pip) entry).Indexed ∧
      (items.foldl (fun kept (slot, pip) => kept.insert slot pip) entry).shape = entry.shape ∧
      ∀ (s : PoolSlot) q,
        (items.foldl (fun kept (slot, pip) => kept.insert slot pip) entry).slots[s]? = some q ↔
          (s, q) ∈ items ∨ entry.slots[s]? = some q := by
  induction items generalizing entry with
  | nil => simp [indexed]
  | cons item items ih =>
    obtain ⟨slot, pip⟩ := item
    obtain ⟨first, distinct⟩ := pairwise_cons.mp distinct
    have here : slot ∉ entry.slots := free (slot, pip) mem_cons_self
    have unfiled := getElem?_eq_none_of_notMem here
    have free' : ∀ item ∈ items, item.1 ∉ (entry.insert slot pip).slots := by
      intro item mem held
      obtain ⟨u, holds⟩ := holds_of_mem held
      rcases insert_holds.mp holds with ⟨same, -⟩ | ⟨-, old⟩
      · exact first item mem same.symm
      · exact free item (mem_cons_of_mem _ mem) old.mem
    obtain ⟨indexed', shape', slots'⟩ := ih (indexed.insert unfiled pip) distinct free'
    refine ⟨indexed', shape', fun s q => ?_⟩
    rw [foldl_cons, slots', insert_slots]
    by_cases same : slot = s
    · subst same
      have notLater : (slot, q) ∉ items := fun mem => first _ mem rfl
      simp [notLater, unfiled, eq_comm]
    · simp [same, Ne.symm same]

theorem mergeEntry_spec {nextSlot : PoolSlot} (sound : SoundEntries merged nextSlot)
    (indexed : entry.Indexed) (filled : entry.Filled)
    (fresh : ∀ slot ∈ entry.slots, slot < nextSlot ∧ ∀ other ∈ merged, slot ∉ other.slots) :
    SoundEntries (mergeEntry merged entry) nextSlot ∧
      ∀ s u, HoldsIn (mergeEntry merged entry) s u ↔ entry.Holds s u ∨ HoldsIn merged s u := by
  by_cases known : ∃ kept ∈ merged, decide (kept.shape = entry.shape)
  · obtain ⟨before, kept, after, rfl, same, found⟩ := Indexed.findIdx?_split known
    have same : kept.shape = entry.shape := by simpa using same
    have memKept : kept ∈ before ++ kept :: after := by simp
    have distinct : entry.slots.toList.Pairwise fun a b => a.1 ≠ b.1 :=
      entry.slots.distinct_keys_toList.imp fun {a b} h => by simpa using h
    have listed {s : PoolSlot} {q : ManaPipId} : (s, q) ∈ entry.slots.toList ↔
        entry.slots[s]? = some q := Std.TreeMap.mem_toList_iff_getElem?_eq_some
    have free : ∀ item ∈ entry.slots.toList, item.1 ∉ kept.slots := by
      rintro ⟨s, q⟩ mem
      exact (fresh s (mem_slots.mpr ⟨q, listed.mp mem⟩)).2 kept memKept
    obtain ⟨indexed', shape', slots'⟩ :=
      insertAll_spec (sound.indexed kept memKept) distinct free
    simp only [mergeEntry, found, Indexed.modify_middle]
    set all := entry.slots.toList.foldl (fun kept (slot, pip) => kept.insert slot pip) kept
    have holdsAll (s : PoolSlot) (u : ManaUnit) :
        all.Holds s u ↔ entry.Holds s u ∨ kept.Holds s u := by
      simp only [PoolEntry.Holds, shape', slots', listed, same]
      tauto
    constructor
    · refine sound.replace shape' indexed' ?_ ?_
      · obtain ⟨s, q, there⟩ := filled
        exact ⟨s, q, (slots' s q).mpr (.inl (listed.mpr there))⟩
      · intro s held
        obtain ⟨u, holds⟩ := holds_of_mem held
        rcases (holdsAll s u).mp holds with new | old
        · refine .inr ⟨(fresh s new.mem).1, fun other mem => (fresh s new.mem).2 other ?_⟩
          exact perm_middle.mem_iff.mpr (mem_cons_of_mem _ mem)
        · exact .inl old.mem
    · intro s u
      simp only [holdsIn_middle, holdsAll, or_assoc]
  · have new : ∀ kept ∈ merged, ¬kept.shape = entry.shape := by simpa using known
    have none_ : (merged.findIdx? fun kept => kept.shape = entry.shape) = none := by
      simpa using new
    simp only [mergeEntry, none_]
    constructor
    · exact (sound.cons indexed filled (fun other mem same => new other mem same.symm)
        fresh).perm (perm_append_singleton _ _).symm
    · intro s u
      rw [holdsIn_middle, append_nil]

/-- What an edit of the shapes does to a unit. -/
def editUnit (edit : ManaShape → Option ManaShape) (unit : ManaUnit) : ManaUnit :=
  ((edit unit.toManaShape).getD unit.toManaShape).withPip unit.pipId

theorem edited_holds (edit : ManaShape → Option ManaShape) {s : PoolSlot} {u : ManaUnit} :
    PoolEntry.Holds { entry with shape := (edit entry.shape).getD entry.shape } s u ↔
      ∃ v, entry.Holds s v ∧ u = editUnit edit v := by
  constructor
  · rintro ⟨shape, there⟩
    refine ⟨entry.shape.withPip u.pipId, ⟨rfl, there⟩, ?_⟩
    exact ManaUnit.ext_shape shape.symm rfl
  · rintro ⟨v, ⟨shape, there⟩, rfl⟩
    exact ⟨by simp [editUnit, shape], there⟩

theorem mergeAll_spec (edit : ManaShape → Option ManaShape) {rest : List PoolEntry}
    {nextSlot : PoolSlot} (sound : SoundEntries merged nextSlot)
    (soundRest : SoundEntries rest nextSlot)
    (fresh : ∀ entry ∈ rest, ∀ slot ∈ entry.slots, ∀ u, ¬HoldsIn merged slot u) :
    SoundEntries (rest.foldl (fun merged entry =>
        mergeEntry merged { entry with shape := (edit entry.shape).getD entry.shape }) merged)
      nextSlot ∧
    ∀ s u, HoldsIn (rest.foldl (fun merged entry =>
        mergeEntry merged { entry with shape := (edit entry.shape).getD entry.shape }) merged) s u ↔
      HoldsIn merged s u ∨ ∃ v, HoldsIn rest s v ∧ u = editUnit edit v := by
  induction rest generalizing merged with
  | nil => simp [sound]
  | cons entry rest ih =>
    have first : entry ∈ entry :: rest := mem_cons_self
    have indexed : Indexed { entry with shape := (edit entry.shape).getD entry.shape } :=
      ⟨(soundRest.indexed entry first).inverse, (soundRest.indexed entry first).filled⟩
    obtain ⟨merge, holds⟩ := mergeEntry_spec sound indexed (soundRest.filled entry first)
      (fun slot held => ⟨soundRest.below entry first slot held, fun other mem =>
        not_mem_of_free (fresh entry first slot held) mem⟩)
    have fresh' : ∀ later ∈ rest, ∀ slot ∈ later.slots, ∀ u, ¬HoldsIn (mergeEntry merged
        { entry with shape := (edit entry.shape).getD entry.shape }) slot u := by
      intro later mem slot held u there
      rcases (holds slot u).mp there with new | old
      · exact ((pairwise_cons.mp soundRest.apart).1 later mem).2 slot new.mem held
      · exact fresh later (mem_cons_of_mem _ mem) slot held u old
    obtain ⟨sound', holds'⟩ := ih merge (soundRest.sublist (sublist_cons_self _ _)) fresh'
    refine ⟨sound', fun s u => ?_⟩
    rw [foldl_cons, holds', holds, edited_holds]
    have split (v : ManaUnit) : HoldsIn (entry :: rest) s v ↔
        entry.Holds s v ∨ HoldsIn rest s v := @holdsIn_middle [] rest entry s v
    simp only [split, or_and_right, exists_or]
    rw [or_assoc, or_left_comm]

theorem editShapes_spec (sound : pool.Sound) (edit : ManaShape → Option ManaShape) :
    (pool.editShapes edit).Sound ∧
      ∀ s u, (pool.editShapes edit).Holds s u ↔ ∃ v, pool.Holds s v ∧ u = editUnit edit v := by
  rw [editShapes]
  split
  · next unedited =>
    refine ⟨sound, fun s u => ?_⟩
    have same (v : ManaUnit) (holds : pool.Holds s v) : editUnit edit v = v := by
      obtain ⟨entry, mem, shape, -⟩ := holds
      have none_ : edit entry.shape = none := by
        simp only [Bool.not_eq_eq_eq_not, Bool.not_true, any_eq_false,
          Option.not_isSome_iff_eq_none] at unedited
        exact unedited entry mem
      rw [editUnit, ← shape, none_, Option.getD_none, shape, ManaUnit.withPip_eta]
    constructor
    · intro holds
      exact ⟨u, holds, (same u holds).symm⟩
    · rintro ⟨v, holds, rfl⟩
      rw [same v holds]
      exact holds
  · have empty : SoundEntries [] pool.nextSlot := SoundEntries.nil
    obtain ⟨sound', holds'⟩ := mergeAll_spec edit empty sound fun _ _ _ _ _ => holdsIn_nil
    refine ⟨sound', fun s u => ?_⟩
    rw [Holds, holds', or_iff_right holdsIn_nil]
    rfl

theorem retainShapes_spec (sound : pool.Sound) (keep : ManaShape → Bool) :
    (pool.retainShapes keep).Sound ∧ ∀ s u, (pool.retainShapes keep).Holds s u ↔
      pool.Holds s u ∧ keep u.toManaShape := by
  refine ⟨sound.sublist filter_sublist, fun s u => ?_⟩
  simp only [Holds, HoldsIn, retainShapes, mem_filter]
  constructor
  · rintro ⟨entry, ⟨mem, kept⟩, holds⟩
    exact ⟨⟨entry, mem, holds⟩, holds.1 ▸ kept⟩
  · rintro ⟨⟨entry, mem, holds⟩, kept⟩
    exact ⟨entry, ⟨mem, holds.1.symm ▸ kept⟩, holds⟩

theorem pushMerged_spec (sound : pool.Sound) (unit : ManaUnit) :
    (pool.pushMerged unit).Sound ∧ ∀ s u, (pool.pushMerged unit).Holds s u ↔
      pool.Holds s u ∨ (s = pool.nextSlot ∧ u = unit) := by
  have sound' : Sound { pool with nextSlot := pool.nextSlot + 1 } :=
    SoundEntries.mono sound (Nat.le_succ _)
  have free (u : ManaUnit) : ¬Holds { pool with nextSlot := pool.nextSlot + 1 } pool.nextSlot u :=
    fun holds => lt_irrefl _ (sound.slot_lt holds)
  refine ⟨insertAt_sound sound' (Nat.lt_succ_self _) free _ _, fun s u => ?_⟩
  rw [pushMerged, insertAt_holds free, or_comm]
  rfl

end ManaPool

end Phase.Mana
