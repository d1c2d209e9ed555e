import Phase.Codec.Index

/-! The operations found between two documents can always be applied to the first of them. -/
namespace Phase.Codec
open List RawMap

open Fallible (bind_eq_ok ok_bind)

variable {crates : Crates}

/-- What `diffFieldsBy` finds when the keys are unique. -/
def fieldsBetween (before after : RawMap crates) (child : Option String)
    (equivalent : String → RawValue crates → RawValue crates → Bool) : FieldPatch crates where
  set := ⟨after.entries.filter fun (key, value) =>
    child ≠ some key && !((before.get key).any fun old => equivalent key old value)⟩
  remove := (before.entries.filter fun (key, _) =>
    child ≠ some key && (after.get key).isNone).map Prod.fst
  order :=
    if (before.entries.filter fun (key, _) => (after.get key).isSome).map Prod.fst ++
        (after.entries.filter fun (key, _) => (before.get key).isNone).map Prod.fst ≠ after.keys
    then some after.keys else none

theorem diffFieldsBy_eq {before after : RawMap crates} (unique : after.keys.Nodup)
    (child : Option String) (equivalent : String → RawValue crates → RawValue crates → Bool) :
    diffFieldsBy before after child equivalent =
      .ok (fieldsBetween before after child equivalent) := by
  have kept : (after.entries.filter fun (key, value) =>
      child ≠ some key && !((before.get key).any fun old => equivalent key old value)).map
        Prod.fst |>.Nodup :=
    Nodup.sublist (Sublist.map _ filter_sublist) unique
  rw [diffFieldsBy, new, if_pos kept]
  rfl

/-- The child, when there is one, is in both maps. -/
def Shared (before after : RawMap crates) (child : Option String) : Prop :=
  ∀ key, child = some key → key ∈ before.keys ∧ key ∈ after.keys

/-- What the operations between two maps come to. -/
structure Between (before after : RawMap crates) (child : Option String)
    (patch : FieldPatch crates) : Prop where
  set_mem : ∀ entry ∈ patch.set.entries, entry ∈ after.entries
  set_nodup : patch.set.keys.Nodup
  remove_nodup : patch.remove.Nodup
  remove_mem : ∀ key ∈ patch.remove, key ∈ before.keys ∧ key ∉ after.keys
  order_eq : ∀ order, patch.order = some order → order = after.keys
  child_free : ∀ key, child = some key → key ∉ patch.set.keys ∧ key ∉ patch.remove
  merged : ((mergeEntries before (some patch.set) patch.remove).map Prod.fst).Perm after.keys

section
variable {before after : RawMap crates} {child : Option String}
  {equivalent : String → RawValue crates → RawValue crates → Bool} {patch : FieldPatch crates}

theorem RawMap.mem_keys {map : RawMap crates} {key : String} :
    key ∈ map.keys ↔ ∃ value, (key, value) ∈ map.entries := by
  simp [keys]

theorem isSome_eq (map : RawMap crates) (key : String) :
    (map.get key).isSome = decide (key ∈ map.keys) := by
  rw [Bool.eq_iff_iff, get_isSome, decide_eq_true_eq]

theorem isNone_eq (map : RawMap crates) (key : String) :
    (map.get key).isNone = decide (key ∉ map.keys) := by
  rw [Bool.eq_iff_iff, get_isNone, decide_eq_true_eq]

theorem Between.set_keys (between : Between before after child patch) {key : String}
    (mem : key ∈ patch.set.keys) : key ∈ after.keys := by
  obtain ⟨value, here⟩ := mem_keys.mp mem
  exact mem_keys.mpr ⟨value, between.set_mem _ here⟩

/-- The keys that operations leave, in the order they have when none is given. -/
def resultKeys (base set : RawMap crates) (remove : List String) : List String :=
  base.keys.filter (· ∉ remove) ++ set.keys.filter (· ∉ base.keys)

theorem mergeEntries_keys (base set : RawMap crates) (remove : List String) :
    (mergeEntries base (some set) remove).map Prod.fst = resultKeys base set remove := by
  simp only [mergeEntries, Option.elim_some, map_append, map_map, resultKeys, RawMap.keys, filter_map,
    Function.comp_def, isNone_eq]

theorem mem_remove (shared : Shared before after child) {key : String} (here : key ∈ before.keys) :
    key ∈ (fieldsBetween before after child equivalent).remove ↔ key ∉ after.keys := by
  obtain ⟨value, mem⟩ := mem_keys.mp here
  simp only [fieldsBetween, mem_map, mem_filter, Bool.and_eq_true, decide_eq_true_eq, get_isNone]
  constructor
  · rintro ⟨⟨k, v⟩, ⟨-, -, gone⟩, rfl⟩
    exact gone
  · intro gone
    exact ⟨(key, value), ⟨mem, fun isChild => gone (shared key isChild).2, gone⟩, rfl⟩

/-- The keys kept, then the new ones. -/
theorem fieldsBetween_keys (shared : Shared before after child) :
    resultKeys before (fieldsBetween before after child equivalent).set
        (fieldsBetween before after child equivalent).remove =
      before.keys.filter (· ∈ after.keys) ++ after.keys.filter (· ∉ before.keys) := by
  rw [resultKeys]
  congr 1
  · refine filter_congr fun key here => ?_
    rw [Bool.eq_iff_iff, decide_eq_true_eq, mem_remove shared here, not_not, decide_eq_true_eq]
  · show (map Prod.fst (filter _ after.entries)).filter _ = (map Prod.fst after.entries).filter _
    rw [filter_map, filter_map, filter_filter]
    refine congrArg _ (filter_congr fun entry here => ?_)
    rw [Bool.eq_iff_iff, Bool.and_eq_true, Function.comp, decide_eq_true_eq]
    refine ⟨And.left, fun absent => ⟨absent, ?_⟩⟩
    have none_ := Option.isNone_iff_eq_none.mp (get_isNone.mpr absent)
    simpa [none_] using fun isChild => absent (shared _ isChild).1

theorem merged_perm (uniqueBefore : before.keys.Nodup) (uniqueAfter : after.keys.Nodup)
    (shared : Shared before after child) :
    ((mergeEntries before (some (fieldsBetween before after child equivalent).set)
      (fieldsBetween before after child equivalent).remove).map Prod.fst).Perm after.keys := by
  rw [mergeEntries_keys, fieldsBetween_keys shared]
  refine (perm_ext_iff_of_nodup ?_ uniqueAfter).mpr fun key => ?_
  · refine (uniqueBefore.filter _).append (uniqueAfter.filter _) fun key old new => ?_
    simpa [mem_of_mem_filter old] using mem_filter.mp new
  · by_cases old : key ∈ before.keys <;> simp [old]

theorem fieldsBetween_between (uniqueBefore : before.keys.Nodup) (uniqueAfter : after.keys.Nodup)
    (shared : Shared before after child) :
    Between before after child (fieldsBetween before after child equivalent) where
  set_mem _ mem := mem_of_mem_filter mem
  set_nodup := Nodup.sublist (Sublist.map _ filter_sublist) uniqueAfter
  remove_nodup := Nodup.sublist (Sublist.map _ filter_sublist) uniqueBefore
  remove_mem key mem := by
    obtain ⟨⟨k, v⟩, here, rfl⟩ := mem_map.mp mem
    obtain ⟨old, gone⟩ := mem_filter.mp here
    simp only [Bool.and_eq_true, get_isNone] at gone
    exact ⟨mem_keys.mpr ⟨v, old⟩, gone.2⟩
  order_eq order isOrder := by
    simp only [fieldsBetween] at isOrder
    split at isOrder
    · exact (Option.some.inj isOrder).symm
    · cases isOrder
  child_free key isChild := by
    constructor
    · intro mem
      obtain ⟨value, here⟩ := mem_keys.mp mem
      have := (mem_filter.mp here).2
      simp [isChild] at this
    · intro mem
      obtain ⟨⟨k, v⟩, here, rfl⟩ := mem_map.mp mem
      have := (mem_filter.mp here).2
      simp [isChild] at this
  merged := merged_perm uniqueBefore uniqueAfter shared

end

instance : Inhabited (Node crates) := ⟨.map []⟩

theorem takePositions_eq {α : Type} {slots : List (Option α)} {positions : List Nat} {out : List α}
    (distinct : positions.Nodup)
    (held : positions.map (fun position => slots[position]?) = out.map fun a => some (some a)) :
    (takePositions slots positions : Except (CodecError crates) (List α)) = .ok out := by
  induction positions generalizing slots out with
  | nil =>
    cases out with
    | nil => rfl
    | cons a out => simp at held
  | cons position positions ih =>
    cases out with
    | nil => simp at held
    | cons a out =>
      obtain ⟨notLater, distinct⟩ := nodup_cons.mp distinct
      have here : slots[position]? = some (some a) := (cons.inj held).1
      have rest := (cons.inj held).2
      have rest' : positions.map (fun q => (slots.set position none)[q]?) =
          out.map fun b => some (some b) := by
        rw [← rest]
        refine map_congr_left fun q mem => ?_
        rw [getElem?_set_ne]
        rintro rfl
        exact notLater mem
      rw [takePositions, here]
      simp only [ih distinct rest', ok_bind]
      rfl

variable {entries : List (String × Node crates)}

theorem reorder_eq {order : List String} (distinct : order.Nodup)
    (perm : (entries.map Prod.fst).Perm order) :
    ∃ out, reorder entries order = .ok out ∧ out.map Prod.fst = order ∧ out ⊆ entries := by
  have known (key : String) (mem : key ∈ order) : ∃ position node,
      (entries.findIdx? fun entry => entry.1 = key) = some position ∧
        entries[position]? = some (key, node) := by
    obtain ⟨⟨k, node⟩, here, rfl⟩ := mem_map.mp (perm.mem_iff.mpr mem)
    cases found : entries.findIdx? fun entry => entry.1 = k with
    | none =>
      have absent := findIdx?_eq_none_iff.mp found (k, node) here
      simp at absent
    | some position =>
      obtain ⟨bound, passes, -⟩ := findIdx?_eq_some_iff_getElem.mp found
      refine ⟨position, entries[position].2, rfl, ?_⟩
      rw [getElem?_eq_getElem bound]
      have same : entries[position].1 = k := by simpa using passes
      rw [← same]
  choose! position node found at_ using known
  have positions : order.mapM (positionOf entries) = .ok (order.map position) :=
    Fallible.mapM_eq_ok fun key mem => by rw [positionOf, found key mem]; rfl
  have separate : (order.map position).Nodup := by
    refine Nodup.map_on ?_ distinct
    intro a memA b memB same
    have atA := at_ a memA
    rw [same, at_ b memB] at atA
    exact (Prod.ext_iff.mp (Option.some.inj atA)).1.symm
  have held : (order.map position).map (fun p => (entries.map some)[p]?) =
      (order.map fun key => (key, node key)).map fun a => some (some a) := by
    rw [map_map, map_map]
    refine map_congr_left fun key mem => ?_
    simp [at_ key mem]
  refine ⟨order.map fun key => (key, node key), ?_, by simp [Function.comp_def], ?_⟩
  swap
  · intro entry mem
    obtain ⟨key, here, rfl⟩ := mem_map.mp mem
    exact mem_of_getElem? (at_ key here)
  have length : ¬order.length ≠ entries.length := by
    rw [← perm.length_eq, length_map, not_not]
  simp only [reorder, if_neg length, positions, ok_bind, takePositions_eq separate held]

section
variable {before after : RawMap crates} {child : Option String} {patch : FieldPatch crates}

section
variable (between : Between before after child patch) (unique : after.keys.Nodup)
include between unique

theorem Between.validate : validateOperations patch.set patch.remove patch.order = .ok () := by
  have noOverlap : ¬(patch.remove.any fun key => (patch.set.get key).isSome) := by
    simp only [any_eq_true, not_exists, not_and, get_isSome]
    intro key mem here
    exact (between.remove_mem key mem).2 (between.set_keys here)
  have ordered : ¬(patch.order.any fun keys => !decide keys.Nodup) := by
    cases isOrder : patch.order with
    | none => simp
    | some order => simp [between.order_eq order isOrder, unique]
  have distinct : ¬(!decide patch.remove.Nodup) = true := by simp [between.remove_nodup]
  rw [validateOperations, if_neg distinct, if_neg noOverlap, if_neg ordered]
  rfl

/-- The operations apply, and the result has the second map's keys. -/
theorem Between.applyMap_ok :
    ∃ entries, applyMap before (some patch.set) patch.remove patch.order = .ok (.map entries) ∧
      (entries.map Prod.fst).Perm after.keys := by
  have targets : ¬(patch.remove.any fun key => (before.get key).isNone) := by
    simp only [any_eq_true, not_exists, not_and, get_isNone, not_not]
    intro key mem
    exact (between.remove_mem key mem).1
  simp only [applyMap, Option.forM, between.validate unique, ok_bind, if_neg targets]
  cases isOrder : patch.order with
  | none => exact ⟨_, rfl, between.merged⟩
  | some order =>
    obtain rfl := between.order_eq order isOrder
    obtain ⟨out, ok, keys, -⟩ := reorder_eq unique between.merged
    simp only [ok, ok_bind]
    exact ⟨out, rfl, by rw [keys]⟩

/-- The same with an empty patch left out. -/
theorem Between.applyFields_ok :
    ∃ entries, applyFields before ((some patch).filter fun fields => !fields.isEmpty) =
        .ok (.map entries) ∧
      ∀ key, key ∈ before.keys → key ∈ after.keys → key ∈ entries.map Prod.fst := by
  cases empty : patch.isEmpty with
  | true =>
    rw [Option.filter_some_neg (by simp [empty])]
    refine ⟨_, rfl, fun key here _ => ?_⟩
    simpa [mergeEntries, RawMap.keys] using here
  | false =>
    rw [Option.filter_some_pos (by simp [empty])]
    obtain ⟨entries, ok, perm⟩ := between.applyMap_ok unique
    exact ⟨entries, ok, fun key _ here => perm.mem_iff.mpr here⟩

end

end

theorem replaceChild_ok {key : String} (here : key ∈ entries.map Prod.fst) (child : Node crates) :
    ∃ replaced, replaceChild (.map entries) key child = .ok replaced := by
  obtain ⟨⟨k, node⟩, mem, rfl⟩ := mem_map.mp here
  rw [replaceChild]
  cases found : entries.findIdx? fun entry => entry.1 = k with
  | none =>
    have absent := findIdx?_eq_none_iff.mp found (k, node) mem
    simp at absent
  | some position => exact ⟨_, rfl⟩

end Phase.Codec
