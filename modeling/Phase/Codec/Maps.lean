import Mathlib.Data.List.Perm.Subperm
import Phase.Codec.Apply
import Phase.Codec.PlainJson

/-! Exactly when operations apply to a map, and what they make of it. -/
namespace Phase.Codec
open List RawMap
open Fallible (bind_eq_ok ok_bind guard_eq_ok ite_throw_eq_ok)

variable {crates : Crates} {base set : RawMap crates} {remove : List String}
  {order : Option (List String)} {key : String}

structure Applicable (base set : RawMap crates) (remove : List String)
    (order : Option (List String)) : Prop where
  there : ∀ key ∈ remove, key ∈ base.keys
  apart : ∀ key ∈ remove, key ∉ set.keys
  once : remove.Nodup
  ordered : ∀ keys, order = some keys → keys.Perm (resultKeys base set remove)

/-- The value a key is left with: the one set, or else its own. -/
def Leaves (base set : RawMap crates) (remove : List String) (key : String)
    (value : RawValue crates) : Prop :=
  set.get key = some value ∨ set.get key = none ∧ key ∉ remove ∧ base.get key = some value

/-- The entries that operations make of a map. -/
structure Applied (base set : RawMap crates) (remove : List String)
    (order : Option (List String)) (entries : List (String × Node crates)) : Prop where
  keys : entries.map Prod.fst = order.getD (resultKeys base set remove)
  values : ∀ key node, (key, node) ∈ entries ↔
    ∃ value, node = .raw value ∧ Leaves base set remove key value

theorem validateOperations_ok : validateOperations set remove order = .ok () ↔
    remove.Nodup ∧ (∀ key ∈ remove, key ∉ set.keys) ∧ ∀ keys, order = some keys → keys.Nodup := by
  rw [validateOperations, guard_eq_ok, guard_eq_ok, ite_throw_eq_ok]
  cases order <;> simp [get_isSome, pure, Except.pure]

theorem each_of_mapM_ok {α β ε : Type} {f : α → Except ε β} {xs : List α} {ys : List β}
    (ok : xs.mapM f = .ok ys) {x : α} (mem : x ∈ xs) : ∃ y, f x = .ok y := by
  induction xs generalizing ys with
  | nil => cases mem
  | cons first xs ih =>
    rw [mapM_cons] at ok
    obtain ⟨y, isFirst, ok⟩ := bind_eq_ok.mp ok
    obtain ⟨ys, rest, -⟩ := bind_eq_ok.mp ok
    rcases mem_cons.mp mem with rfl | mem
    · exact ⟨y, isFirst⟩
    · exact ih rest mem

section
variable (uniqueBase : base.keys.Nodup) (uniqueSet : set.keys.Nodup)
include uniqueBase uniqueSet

theorem resultKeys_nodup : (resultKeys base set remove).Nodup := by
  refine (uniqueBase.filter _).append (uniqueSet.filter _) fun key old new => ?_
  simpa [mem_of_mem_filter old] using mem_filter.mp new

theorem mem_mergeEntries (apart : ∀ key ∈ remove, key ∉ set.keys) {node : Node crates} :
    (key, node) ∈ mergeEntries base (some set) remove ↔
      ∃ value, node = .raw value ∧ Leaves base set remove key value := by
  simp only [mergeEntries, mem_append, mem_map, mem_filter, Option.bind_some, Option.elim_some,
    decide_eq_true_eq, get_isNone, Prod.exists, Prod.mk.injEq]
  constructor
  · rintro (⟨k, old, ⟨mem, kept⟩, rfl, rfl⟩ | ⟨k, new, ⟨mem, -⟩, rfl, rfl⟩)
    · refine ⟨_, rfl, ?_⟩
      cases found : set.get k with
      | none => exact .inr ⟨found, kept, get_of_mem uniqueBase mem⟩
      | some value => exact .inl found
    · exact ⟨_, rfl, .inl (get_of_mem uniqueSet mem)⟩
  · rintro ⟨value, rfl, found | ⟨absent, kept, found⟩⟩
    · by_cases old : key ∈ base.keys
      · obtain ⟨oldValue, mem⟩ := mem_keys.mp old
        exact .inl ⟨key, oldValue, ⟨mem, fun gone => apart key gone (mem_keys_of_get found)⟩, rfl,
          by rw [found]; rfl⟩
      · exact .inr ⟨key, value, ⟨mem_of_get found, old⟩, rfl, rfl⟩
    · exact .inl ⟨key, value, ⟨mem_of_get found, kept⟩, rfl, by rw [absent]; rfl⟩

theorem Applicable.applied (can : Applicable base set remove order) :
    ∃ entries, applyMap base (some set) remove order = .ok (.map entries) ∧
      Applied base set remove order entries := by
  have nodup : (resultKeys base set remove).Nodup := resultKeys_nodup uniqueBase uniqueSet
  have valid := validateOperations_ok.mpr ⟨can.once, can.apart, fun keys is =>
    (can.ordered keys is).nodup_iff.mpr nodup⟩
  have targets : ¬(remove.any fun key => (base.get key).isNone) := by
    simpa only [any_eq_true, not_exists, not_and, get_isNone, not_not] using can.there
  simp only [applyMap, Option.forM, valid, ok_bind, if_neg targets]
  cases order with
  | none =>
    exact ⟨_, rfl, mergeEntries_keys .., fun _ _ => mem_mergeEntries uniqueBase uniqueSet can.apart⟩
  | some keys =>
    have perm := can.ordered keys rfl
    rw [← mergeEntries_keys] at perm nodup
    obtain ⟨out, ok, isKeys, sub⟩ := reorder_eq (perm.nodup_iff.mpr nodup) perm.symm
    have same : out.Perm (mergeEntries base (some set) remove) :=
      ((Nodup.of_map Prod.fst (isKeys ▸ perm.nodup_iff.mpr nodup)).subperm sub).perm_of_length_le
        (by simpa [← isKeys] using Nat.le_of_eq perm.length_eq.symm)
    simp only [ok, ok_bind]
    exact ⟨out, rfl, isKeys, fun _ _ => same.mem_iff.trans
      (mem_mergeEntries uniqueBase uniqueSet can.apart)⟩

end

theorem Applicable.of_ok {result : Node crates}
    (ok : applyMap base (some set) remove order = .ok result) :
    Applicable base set remove order := by
  obtain ⟨⟨⟩, valid, ok⟩ := bind_eq_ok.mp ok
  obtain ⟨once, apart, distinct⟩ := validateOperations_ok.mp valid
  obtain ⟨there, ok⟩ := guard_eq_ok.mp ok
  refine ⟨?_, apart, once, ?_⟩
  · simpa only [any_eq_true, not_exists, not_and, get_isNone, not_not] using there
  · rintro keys rfl
    obtain ⟨entries, reordered, -⟩ := bind_eq_ok.mp ok
    obtain ⟨complete, reordered⟩ := guard_eq_ok.mp reordered
    obtain ⟨positions, isPositions, -⟩ := bind_eq_ok.mp reordered
    have known : keys ⊆ resultKeys base set remove := fun key mem => by
      obtain ⟨position, found⟩ := each_of_mapM_ok isPositions mem
      rw [← mergeEntries_keys]
      cases isPosition : (mergeEntries base (some set) remove).findIdx? (·.1 = key) with
      | none => rw [positionOf, isPosition] at found; cases found
      | some i =>
        obtain ⟨bound, passes, -⟩ := findIdx?_eq_some_iff_getElem.mp isPosition
        exact mem_map.mpr ⟨_, getElem_mem bound, by simpa using passes⟩
    refine ((distinct keys rfl).subperm known).perm_of_length_le ?_
    exact Nat.le_of_eq (by rw [← mergeEntries_keys, length_map, not_not.mp complete])

section
variable {before after : RawMap crates} {child : Option String}
  {equivalent : String → RawValue crates → RawValue crates → Bool}
variable (uniqueAfter : after.keys.Nodup) (shared : Shared before after child)
include shared

/-- Without an order the operations leave the keys in the order that they are to have. -/
theorem fieldsBetween_order :
    let fields := fieldsBetween before after child equivalent
    fields.order.getD (resultKeys before fields.set fields.remove) = after.keys := by
  intro fields
  have default : (before.entries.filter fun entry => (after.get entry.1).isSome).map Prod.fst ++
      (after.entries.filter fun entry => (before.get entry.1).isNone).map Prod.fst =
        resultKeys before fields.set fields.remove := by
    rw [fieldsBetween_keys shared]
    simp only [isSome_eq, isNone_eq, RawMap.keys, filter_map, Function.comp_def]
  simp only [fields, fieldsBetween] at default ⊢
  split
  · rfl
  · next same => exact default.symm.trans (not_not.mp same)

include uniqueAfter in
/-- What is left with a key is the second map's value, or the first map's where the key is the
child's or the two are equivalent. -/
theorem fieldsBetween_leaves {value : RawValue crates} (left : Leaves before
      (fieldsBetween before after child equivalent).set
      (fieldsBetween before after child equivalent).remove key value) :
    after.get key = some value ∨ before.get key = some value ∧ (child = some key ∨
      ∃ new, after.get key = some new ∧ equivalent key value new) := by
  rcases left with found | ⟨absent, kept, found⟩
  · exact .inl (get_of_mem uniqueAfter (mem_of_mem_filter (mem_of_get found)))
  · have here := mem_keys_of_get found
    rw [mem_remove shared here, not_not] at kept
    obtain ⟨new, mem⟩ := mem_keys.mp kept
    refine .inr ⟨found, or_iff_not_imp_left.mpr fun other =>
      ⟨new, get_of_mem uniqueAfter mem, ?_⟩⟩
    by_contra differs
    refine get_isNone.mp (Option.isNone_iff_eq_none.mpr absent)
      (mem_keys.mpr ⟨new, mem_filter.mpr ⟨mem, ?_⟩⟩)
    simpa [found, other] using differs

end

/-- The operations found between two maps make the second of the first, its keys in its order,
but for values that are equivalent or the child's. Operations apply exactly when they are
`Applicable`, and what they make of the map is what they say. -/
theorem operations_exact (base other : RawMap crates) (uniqueBase : base.keys.Nodup)
    (uniqueOther : other.keys.Nodup) :
    (∀ child equivalent, Shared base other child → ∃ fields entries,
      diffFieldsBy base other child equivalent = .ok fields ∧
      applyMap base (some fields.set) fields.remove fields.order = .ok (.map entries) ∧
      entries.map Prod.fst = other.keys ∧
      ∀ key node, (key, node) ∈ entries → ∃ value, node = .raw value ∧
        (other.get key = some value ∨ base.get key = some value ∧ (child = some key ∨
          ∃ new, other.get key = some new ∧ equivalent key value new))) ∧
    ∀ remove order,
      ((∃ result, applyMap base (some other) remove order = .ok result) ↔
        Applicable base other remove order) ∧
      ∀ result, applyMap base (some other) remove order = .ok result →
        ∃ entries, result = .map entries ∧ Applied base other remove order entries := by
  refine ⟨fun child equivalent shared => ?_, fun remove order => ⟨⟨?_, fun can => ?_⟩, ?_⟩⟩
  · have between := @fieldsBetween_between _ _ _ _ equivalent uniqueBase uniqueOther shared
    obtain ⟨entries, ok, applied⟩ := Applicable.applied uniqueBase between.set_nodup
      { there := fun key mem => (between.remove_mem key mem).1
        apart := fun key mem here => (between.remove_mem key mem).2 (between.set_keys here)
        once := between.remove_nodup
        ordered := fun keys is => by
          rw [between.order_eq keys is, ← mergeEntries_keys]
          exact between.merged.symm }
    refine ⟨_, entries, diffFieldsBy_eq uniqueOther child equivalent, ok,
      applied.keys.trans (fieldsBetween_order shared), fun key node mem => ?_⟩
    obtain ⟨value, is, left⟩ := (applied.values key node).mp mem
    exact ⟨value, is, fieldsBetween_leaves uniqueOther shared left⟩
  · rintro ⟨result, ok⟩
    exact .of_ok ok
  · obtain ⟨entries, ok, -⟩ := can.applied uniqueBase uniqueOther
    exact ⟨_, ok⟩
  · intro result ok
    obtain ⟨entries, isOk, applied⟩ := (Applicable.of_ok ok).applied uniqueBase uniqueOther
    exact ⟨entries, Except.ok.inj (ok.symm.trans isOk), applied⟩

namespace PlainJson

def single (key text : String) : RawMap PlainJson.crates :=
  ⟨[(key, ⟨quote text, lawful.quote_isValue text⟩)]⟩

end PlainJson

/-- A key is replaced by another. -/
theorem renamed_key_applies : ∃ fields entries,
    diffFields (PlainJson.single "a" "b") (PlainJson.single "c" "d") none = .ok fields ∧
    applyMap (PlainJson.single "a" "b") (some fields.set) fields.remove fields.order =
      .ok (.map entries) ∧ entries.map Prod.fst = ["c"] := by
  obtain ⟨fields, entries, found, applied, isKeys, -⟩ := (operations_exact
    (PlainJson.single "a" "b") (PlainJson.single "c" "d") (nodup_singleton _)
    (nodup_singleton _)).1 none _ fun _ isChild => by cases isChild
  exact ⟨fields, entries, found, applied, isKeys⟩

end Phase.Codec
