import Phase.Lib.Indexed
import Phase.Mana.PoolEntry

/-! The representation invariant of the mana pool, and what each change does to the units
held at the slots. -/
namespace Phase.Mana
open List PoolEntry

/-- Two entries share neither their shape nor a slot. -/
def PoolEntry.Apart (a b : PoolEntry) : Prop :=
  a.shape ≠ b.shape ∧ ∀ slot, slot ∈ a.slots → slot ∉ b.slots

instance : Std.Symm Apart where
  symm _ _ apart := ⟨apart.1.symm, fun slot there here => apart.2 slot here there⟩

/-- One non-empty, indexed entry per shape, disjoint slots, all below `nextSlot`. -/
structure SoundEntries (entries : List PoolEntry) (nextSlot : PoolSlot) : Prop where
  apart : entries.Pairwise Apart
  indexed : ∀ entry ∈ entries, entry.Indexed
  filled : ∀ entry ∈ entries, entry.Filled
  below : ∀ entry ∈ entries, ∀ slot ∈ entry.slots, slot < nextSlot

def HoldsIn (entries : List PoolEntry) (slot : PoolSlot) (unit : ManaUnit) : Prop :=
  ∃ entry ∈ entries, entry.Holds slot unit

namespace SoundEntries

variable {entries before after : List PoolEntry} {entry : PoolEntry} {nextSlot slot : PoolSlot}

theorem nil : SoundEntries [] nextSlot := ⟨.nil, nofun, nofun, nofun⟩

section
variable (sound : SoundEntries entries nextSlot)
include sound

theorem sublist {kept : List PoolEntry} (sub : kept.Sublist entries) :
    SoundEntries kept nextSlot where
  apart := sound.apart.sublist sub
  indexed entry mem := sound.indexed entry (sub.subset mem)
  filled entry mem := sound.filled entry (sub.subset mem)
  below entry mem := sound.below entry (sub.subset mem)

/-- The order of the entries does not matter. -/
theorem perm {moved : List PoolEntry} (perm : entries.Perm moved) :
    SoundEntries moved nextSlot where
  apart := (perm.pairwise_iff (fun h => Std.Symm.symm _ _ h)).mp sound.apart
  indexed entry mem := sound.indexed entry (perm.mem_iff.mpr mem)
  filled entry mem := sound.filled entry (perm.mem_iff.mpr mem)
  below entry mem := sound.below entry (perm.mem_iff.mpr mem)

theorem mono {later : PoolSlot} (le : nextSlot ≤ later) : SoundEntries entries later where
  apart := sound.apart
  indexed := sound.indexed
  filled := sound.filled
  below entry mem slot held := (sound.below entry mem slot held).trans_le le

theorem cons (indexed : entry.Indexed) (filled : entry.Filled)
    (newShape : ∀ other ∈ entries, entry.shape ≠ other.shape)
    (fresh : ∀ slot ∈ entry.slots, slot < nextSlot ∧ ∀ other ∈ entries, slot ∉ other.slots) :
    SoundEntries (entry :: entries) nextSlot where
  apart := pairwise_cons.mpr ⟨fun other mem =>
    ⟨newShape other mem, fun slot held => (fresh slot held).2 other mem⟩, sound.apart⟩
  indexed := forall_mem_cons.mpr ⟨indexed, sound.indexed⟩
  filled := forall_mem_cons.mpr ⟨filled, sound.filled⟩
  below := forall_mem_cons.mpr ⟨fun slot held => (fresh slot held).1, sound.below⟩

end

/-- Replacing an entry by one of its shape whose slots are its own or free. -/
theorem replace (sound : SoundEntries (before ++ entry :: after) nextSlot) {new : PoolEntry}
    (shape : new.shape = entry.shape) (indexed : new.Indexed) (filled : new.Filled)
    (slots : ∀ slot ∈ new.slots, slot ∈ entry.slots ∨
      (slot < nextSlot ∧ ∀ other ∈ before ++ after, slot ∉ other.slots)) :
    SoundEntries (before ++ new :: after) nextSlot := by
  have first := sound.perm perm_middle
  have rest := first.sublist (sublist_cons_self _ _)
  have apart := (pairwise_cons.mp first.apart).1
  refine (rest.cons indexed filled ?_ ?_).perm perm_middle.symm
  · intro other mem
    rw [shape]
    exact (apart other mem).1
  · intro slot held
    rcases slots slot held with old | free
    · exact ⟨first.below entry mem_cons_self slot old, fun other mem =>
        (apart other mem).2 slot old⟩
    · exact free

section
variable (sound : SoundEntries entries nextSlot) {a b : PoolEntry} (ha : a ∈ entries)
  (hb : b ∈ entries)
include sound ha hb

theorem same_entry (slotA : slot ∈ a.slots) (slotB : slot ∈ b.slots) : a = b := by
  by_contra other
  exact (sound.apart.forall ha hb other).2 slot slotA slotB

theorem same_shape (shapes : a.shape = b.shape) : a = b := by
  by_contra other
  exact (sound.apart.forall ha hb other).1 shapes

end

end SoundEntries

section
variable {entries before after : List PoolEntry} {entry : PoolEntry} {slot : PoolSlot}
  {unit other : ManaUnit}

@[simp] theorem holdsIn_nil : ¬HoldsIn [] slot unit := by simp [HoldsIn]

theorem HoldsIn.of_perm {moved : List PoolEntry} (perm : entries.Perm moved) :
    HoldsIn entries slot unit ↔ HoldsIn moved slot unit := by
  simp only [HoldsIn, perm.mem_iff]

theorem holdsIn_middle : HoldsIn (before ++ entry :: after) slot unit ↔
    entry.Holds slot unit ∨ HoldsIn (before ++ after) slot unit := by
  rw [HoldsIn.of_perm perm_middle]
  simp [HoldsIn]

theorem not_mem_of_free (free : ∀ unit, ¬HoldsIn entries slot unit) (mem : entry ∈ entries) :
    slot ∉ entry.slots := by
  intro held
  obtain ⟨unit, holds⟩ := holds_of_mem held
  exact free unit ⟨entry, mem, holds⟩

theorem ManaUnit.ext_shape (shape : unit.toManaShape = other.toManaShape)
    (pip : unit.pipId = other.pipId) : unit = other := by
  rw [← unit.withPip_eta, ← other.withPip_eta, shape, pip]

/-- A slot holds one unit. -/
theorem HoldsIn.unique {nextSlot : PoolSlot} (sound : SoundEntries entries nextSlot)
    (h : HoldsIn entries slot unit) (h' : HoldsIn entries slot other) : unit = other := by
  obtain ⟨a, memA, holdsA⟩ := h
  obtain ⟨b, memB, holdsB⟩ := h'
  obtain rfl := sound.same_entry memA memB holdsA.mem holdsB.mem
  exact ManaUnit.ext_shape (holdsA.1.symm.trans holdsB.1)
    (Option.some.inj (holdsA.2.symm.trans holdsB.2))

/-- What one entry holds no other does. -/
theorem HoldsIn.elsewhere {nextSlot : PoolSlot}
    (sound : SoundEntries (before ++ entry :: after) nextSlot) {s : PoolSlot}
    (held : s ∈ entry.slots) (holds : HoldsIn (before ++ after) slot unit) : slot ≠ s := by
  rintro rfl
  obtain ⟨e, mem, holdsE⟩ := holds
  have apart := (pairwise_cons.mp (sound.perm perm_middle).apart).1 e mem
  exact apart.2 slot held holdsE.mem

end

namespace ManaPool

variable {pool : ManaPool} {slot : PoolSlot} {unit : ManaUnit}

def Sound (pool : ManaPool) : Prop := SoundEntries pool.entries pool.nextSlot

def Holds (pool : ManaPool) : PoolSlot → ManaUnit → Prop := HoldsIn pool.entries

theorem insertAt_entries (pool : ManaPool) (slot : PoolSlot) (shape : ManaShape) (pip : ManaPipId) :
    (∃ before entry after, pool.entries = before ++ entry :: after ∧ entry.shape = shape ∧
      pool.insertAt slot shape pip =
        { pool with entries := before ++ entry.insert slot pip :: after }) ∨
    ((∀ entry ∈ pool.entries, shape ≠ entry.shape) ∧ pool.insertAt slot shape pip =
      { pool with entries := pool.entries ++ [(PoolEntry.mk shape {} {}).insert slot pip] }) := by
  by_cases known : ∃ entry ∈ pool.entries, decide (entry.shape = shape)
  · obtain ⟨before, entry, after, split, same, found⟩ := Indexed.findIdx?_split known
    refine .inl ⟨before, entry, after, split, by simpa using same, ?_⟩
    simp only [insertAt, found]
    rw [split, Indexed.modify_middle]
  · have new : ∀ entry ∈ pool.entries, ¬entry.shape = shape := by simpa using known
    refine .inr ⟨fun entry mem same => new entry mem same.symm, ?_⟩
    have none_ : (pool.entries.findIdx? fun entry => entry.shape = shape) = none := by
      simpa using new
    simp only [insertAt, none_]
    rw [Indexed.modify_middle]

theorem insertAt_sound (sound : pool.Sound) (below : slot < pool.nextSlot)
    (free : ∀ unit, ¬pool.Holds slot unit) (shape : ManaShape) (pip : ManaPipId) :
    (pool.insertAt slot shape pip).Sound := by
  have filled (e : PoolEntry) : (e.insert slot pip).Filled :=
    ⟨slot, pip, by simp [insert_slots]⟩
  have slots (e : PoolEntry) {s : PoolSlot} (held : s ∈ (e.insert slot pip).slots) :
      s = slot ∨ s ∈ e.slots := by
    obtain ⟨u, holds⟩ := holds_of_mem held
    exact (insert_holds.mp holds).imp And.left fun h => h.2.mem
  rcases insertAt_entries pool slot shape pip with
    ⟨before, entry, after, split, -, eq⟩ | ⟨new, eq⟩
  · have mem : entry ∈ pool.entries := by simp [split]
    have sound' : SoundEntries (before ++ entry :: after) pool.nextSlot := split ▸ sound
    rw [eq]
    refine sound'.replace rfl ((sound.indexed entry mem).insert
      (getElem?_eq_none_of_notMem (not_mem_of_free free mem)) pip) (filled entry) ?_
    intro s held
    rcases slots entry held with rfl | old
    · refine .inr ⟨below, fun other later => not_mem_of_free free ?_⟩
      rw [split]
      exact perm_middle.mem_iff.mpr (mem_cons_of_mem _ later)
    · exact .inl old
  · rw [eq]
    have indexed : ((PoolEntry.mk shape {} {}).insert slot pip).Indexed :=
      (indexed_empty shape).insert (by simp) pip
    refine SoundEntries.perm (sound.cons indexed (filled _) new ?_) (perm_append_singleton _ _).symm
    intro s held
    rcases slots _ held with rfl | old
    · exact ⟨below, fun other mem => not_mem_of_free free mem⟩
    · simp at old

theorem insertAt_holds (free : ∀ unit, ¬pool.Holds slot unit) (shape : ManaShape)
    (pip : ManaPipId) (s : PoolSlot) (u : ManaUnit) :
    (pool.insertAt slot shape pip).Holds s u ↔
      (s = slot ∧ u = shape.withPip pip) ∨ pool.Holds s u := by
  rcases insertAt_entries pool slot shape pip with
    ⟨before, entry, after, split, rfl, eq⟩ | ⟨-, eq⟩
  · have other (holds : entry.Holds s u) : s ≠ slot := by
      rintro rfl
      exact free u ⟨entry, by simp [split], holds⟩
    simp only [eq, Holds, split, holdsIn_middle, insert_holds]
    tauto
  · have none_ : ¬(PoolEntry.mk shape {} {}).Holds s u := by simp [PoolEntry.Holds]
    simp only [eq, Holds, holdsIn_middle, append_nil, insert_holds]
    tauto

@[simp] theorem insertAt_nextSlot (shape : ManaShape) (pip : ManaPipId) :
    (pool.insertAt slot shape pip).nextSlot = pool.nextSlot := rfl

theorem entryOfSlot_split (sound : pool.Sound) (holds : pool.Holds slot unit) :
    ∃ before entry after, pool.entries = before ++ entry :: after ∧
      pool.entryOfSlot slot = some before.length ∧ entry.Holds slot unit := by
  obtain ⟨held, mem, there⟩ := holds
  have has : held.slots.contains slot := Std.TreeMap.contains_iff_mem.mpr there.mem
  obtain ⟨before, entry, after, split, contains, found⟩ :=
    Indexed.findIdx?_split (p := fun entry : PoolEntry => entry.slots.contains slot)
      ⟨held, mem, has⟩
  obtain rfl := sound.same_entry mem (split ▸ by simp : entry ∈ pool.entries) there.mem
    (Std.TreeMap.contains_iff_mem.mp contains)
  exact ⟨before, held, after, split, found, there⟩

theorem takeSlot_spec (sound : pool.Sound) (holds : pool.Holds slot unit) :
    ∃ left, pool.takeSlot slot = some (unit, left) ∧ left.Sound ∧
      left.nextSlot = pool.nextSlot ∧ ∀ s u, left.Holds s u ↔ pool.Holds s u ∧ s ≠ slot := by
  obtain ⟨before, entry, after, split, found, there⟩ := entryOfSlot_split sound holds
  have mem : entry ∈ pool.entries := by simp [split]
  obtain ⟨rest, removed, restShape, restSlots, indexed⟩ :=
    remove_eq (sound.indexed entry mem) there.2
  have sound' : SoundEntries (before ++ entry :: after) pool.nextSlot := split ▸ sound
  have unit_eq : entry.shape.withPip unit.pipId = unit := by
    rw [there.1, ManaUnit.withPip_eta]
  have holdsRest (s : PoolSlot) (u : ManaUnit) :
      HoldsIn (before ++ rest :: after) s u ↔ pool.Holds s u ∧ s ≠ slot := by
    have elsewhere (other : HoldsIn (before ++ after) s u) : s ≠ slot :=
      other.elsewhere sound' there.mem
    simp only [Holds, split, holdsIn_middle, holds_of_removed restShape restSlots]
    tauto
  have taken : pool.takeSlot slot = some (unit, { pool with entries :=
      if rest.slots.isEmpty then before ++ after else before ++ rest :: after }) := by
    simp only [takeSlot, found, split, Indexed.getElem?_middle, removed, Option.bind_eq_bind,
      Option.bind_some, Indexed.eraseIdx_middle, Indexed.set_middle, unit_eq, Option.pure_def]
  refine ⟨_, taken, ?_⟩
  by_cases empty : rest.slots.isEmpty
  · rw [if_pos empty]
    refine ⟨(sound'.perm perm_middle).sublist (sublist_cons_self _ _), rfl, ?_⟩
    intro s u
    have none_ : ¬rest.Holds s u := fun holds =>
      isEmpty_slots.mp empty ⟨s, _, holds.2⟩
    rw [← holdsRest, holdsIn_middle, or_iff_right none_]
    rfl
  · rw [if_neg empty]
    refine ⟨sound'.replace restShape indexed ?_ ?_, rfl, holdsRest⟩
    · exact not_not.mp fun unfilled => empty (isEmpty_slots.mpr unfilled)
    · intro s held
      obtain ⟨u, holds⟩ := holds_of_mem held
      exact .inl ((holds_of_removed restShape restSlots).mp holds).1.mem

end ManaPool

end Phase.Mana
