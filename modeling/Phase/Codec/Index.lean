import Phase.Lib.Fallible
import Phase.Codec.Patch

/-! What a successful index says about a document. -/
namespace Phase.Codec
open List

open Fallible (bind_eq_ok ite_throw_eq_ok guard_eq_ok pure_eq_ok)

variable {crates : Crates}

theorem orJson_eq_ok {α : Type} {x : Option α} {a : α} :
    (orJson x : Except (CodecError crates) α) = .ok a ↔ x = some a := by
  cases x <;> simp [orJson]

namespace RawMap

variable {map : RawMap crates} {key : String}

theorem get_isSome : (map.get key).isSome ↔ key ∈ map.keys := by
  rw [get, Option.isSome_map, find?_isSome, keys, mem_map]
  constructor
  · rintro ⟨entry, mem, same⟩
    exact ⟨entry, mem, by simpa using same⟩
  · rintro ⟨entry, mem, same⟩
    exact ⟨entry, mem, by simpa using same⟩

theorem get_isNone : (map.get key).isNone ↔ key ∉ map.keys := by
  rw [← get_isSome]
  cases map.get key <;> simp

variable {value : RawValue crates}

theorem mem_of_get (found : map.get key = some value) : (key, value) ∈ map.entries := by
  obtain ⟨entry, here, rfl⟩ := Option.map_eq_some_iff.mp found
  have same : entry.1 = key := by simpa using find?_some here
  exact same ▸ mem_of_find?_eq_some here

theorem mem_keys_of_get (found : map.get key = some value) : key ∈ map.keys :=
  get_isSome.mp (by rw [found]; rfl)

/-- With unique keys a lookup finds the entry. -/
theorem get_of_mem (unique : map.keys.Nodup) (mem : (key, value) ∈ map.entries) :
    map.get key = some value := by
  cases found : map.get key with
  | none => exact absurd (get_isNone.mp (by rw [found]; rfl)) (by
      simpa [keys] using ⟨value, value.2, mem⟩)
  | some other =>
    have memOther := mem_of_get found
    exact congrArg some (Prod.ext_iff.mp (inj_on_of_nodup_map unique memOther mem rfl)).2

theorem read_unique {raw : RawValue crates} {map : RawMap crates} (ok : RawMap.read raw = .ok map) :
    map.keys.Nodup := by
  rw [RawMap.read, bind_eq_ok] at ok
  obtain ⟨entries, -, ok⟩ := ok
  rw [RawMap.new] at ok
  split at ok
  · next new =>
    split at new
    · next unique =>
      cases new
      cases ok
      exact unique
    · cases new
  · cases ok

end RawMap

namespace MapIndex

variable {D : Type} {index : MapIndex crates D}

/-- The map an index stands for. -/
def rawMap (index : MapIndex crates D) : RawMap crates :=
  { entries := index.entries.map fun entry => (entry.key, entry.value) }

theorem raw_eq (lawful : crates.Lawful) (entry : IndexedEntry crates D) :
    raw entry = .ok entry.value := by
  rw [raw, lawful.reads_value]
  rfl

theorem borrow_eq (lawful : crates.Lawful) (index : MapIndex crates D) :
    index.borrow = .ok index.rawMap := by
  have mapped : (index.entries.mapM fun entry => do return (entry.key, ← raw entry)) =
      (.ok (index.entries.map fun entry => (entry.key, entry.value)) :
        Except (CodecError crates) _) :=
    Fallible.mapM_eq_ok fun entry _ => by rw [raw_eq lawful]; rfl
  rw [borrow, mapped]
  rfl

theorem get_eq (lawful : crates.Lawful) (index : MapIndex crates D) (key : String) :
    index.get key = .ok (index.rawMap.get key) := by
  rw [get, entry, RawMap.get, rawMap, find?_map]
  simp only [Function.comp_def]
  cases index.entries.find? fun entry => decide (entry.key = key) with
  | none => rfl
  | some entry =>
    simp only [raw_eq lawful]
    rfl

theorem indexWith_spec {raw : RawValue crates} {digest : RawValue crates → D}
    (ok : indexWith raw digest = .ok index) : index.rawMap.keys.Nodup := by
  rw [indexWith, bind_eq_ok] at ok
  obtain ⟨map, read, ok⟩ := ok
  rw [guard_eq_ok] at ok
  obtain ⟨-, ok⟩ := ok
  cases ok
  have unique := RawMap.read_unique read
  simpa [RawMap.keys, rawMap, Function.comp_def] using unique

end MapIndex

namespace Shape

/-- An indexed document: unique keys in every map, and each map where its parent has it. -/
structure Good (shape : Shape crates) : Prop where
  root : shape.root.rawMap.keys.Nodup
  stateMap : shape.stateMap.rawMap.keys.Nodup
  bare : shape.layout = .state → shape.data = none
  message : shape.layout = .message → ∃ data tag, shape.data = some data ∧
    data.rawMap.keys.Nodup ∧ "data" ∈ shape.root.rawMap.keys ∧ "state" ∈ data.rawMap.keys ∧
    shape.root.rawMap.get "type" = some tag ∧ crates.string tag = some "StateUpdate"
  objects : ∀ objects, shape.objects = some objects → objects.rawMap.keys.Nodup ∧
    "objects" ∈ shape.stateMap.rawMap.keys ∧ ∀ entry ∈ objects.entries, startsObject entry.value

variable {objects : MapIndex crates (StateHash crates)} {state : MapIndex crates Unit}

theorem indexObjects_spec (lawful : crates.Lawful) {raw : RawValue crates}
    (ok : indexObjects raw = .ok objects) :
    objects.rawMap.keys.Nodup ∧ ∀ entry ∈ objects.entries, startsObject entry.value := by
  rw [indexObjects, bind_eq_ok] at ok
  obtain ⟨index, indexed, ok⟩ := ok
  rw [bind_eq_ok] at ok
  obtain ⟨⟨⟩, checked, ok⟩ := ok
  cases ok
  refine ⟨MapIndex.indexWith_spec indexed, ?_⟩
  generalize objects.entries = entries at checked ⊢
  induction entries with
  | nil => simp
  | cons entry entries ih =>
    rw [forM_eq_forM, forM_cons, bind_eq_ok] at checked
    obtain ⟨⟨⟩, first, rest⟩ := checked
    rw [MapIndex.raw_eq lawful, Fallible.ok_bind, ite_throw_eq_ok] at first
    exact forall_mem_cons.mpr ⟨by simpa using first.1, ih rest⟩

theorem findObjects_spec (lawful : crates.Lawful) (ok : findObjects state = .ok (some objects)) :
    objects.rawMap.keys.Nodup ∧ "objects" ∈ state.rawMap.keys ∧
      ∀ entry ∈ objects.entries, startsObject entry.value := by
  rw [findObjects, MapIndex.get_eq lawful, Fallible.ok_bind] at ok
  split at ok
  · next raw found =>
    split at ok
    · rw [bind_eq_ok] at ok
      obtain ⟨index, indexed, ok⟩ := ok
      cases ok
      obtain ⟨unique, bodies⟩ := indexObjects_spec lawful indexed
      exact ⟨unique, RawMap.mem_keys_of_get found, bodies⟩
    · cases ok
  · cases ok

theorem indexMessage_spec (lawful : crates.Lawful) {root data : MapIndex crates Unit}
    {tag : RawValue crates} (ok : indexMessage root tag = .ok (data, state)) :
    crates.string tag = some "StateUpdate" ∧ "data" ∈ root.rawMap.keys ∧
      data.rawMap.keys.Nodup ∧ "state" ∈ data.rawMap.keys ∧ state.rawMap.keys.Nodup := by
  rw [indexMessage, bind_eq_ok] at ok
  obtain ⟨name, isName, ok⟩ := ok
  rw [guard_eq_ok] at ok
  obtain ⟨isUpdate, ok⟩ := ok
  rw [MapIndex.get_eq lawful, Fallible.ok_bind] at ok
  split at ok
  · next dataRaw hasData =>
    rw [bind_eq_ok] at ok
    obtain ⟨dataIndex, indexedData, ok⟩ := ok
    rw [MapIndex.get_eq lawful, Fallible.ok_bind] at ok
    split at ok
    · next stateRaw hasState =>
      rw [bind_eq_ok] at ok
      obtain ⟨stateIndex, indexedState, ok⟩ := ok
      cases ok
      rw [orJson_eq_ok] at isName
      refine ⟨?_, RawMap.mem_keys_of_get hasData, MapIndex.indexWith_spec indexedData,
        RawMap.mem_keys_of_get hasState, MapIndex.indexWith_spec indexedState⟩
      rw [isName, not_not.mp isUpdate]
    · cases ok
  · cases ok

theorem index_good (lawful : crates.Lawful) {json : RawValue crates} {shape : Shape crates}
    (ok : Shape.index json = .ok shape) : shape.Good := by
  rw [index, bind_eq_ok] at ok
  obtain ⟨rootRaw, -, ok⟩ := ok
  rw [bind_eq_ok] at ok
  obtain ⟨root, indexed, ok⟩ := ok
  rw [MapIndex.get_eq lawful, Fallible.ok_bind] at ok
  have unique := MapIndex.indexWith_spec indexed
  split at ok
  · rw [bind_eq_ok] at ok
    obtain ⟨objects, found, ok⟩ := ok
    cases ok
    exact ⟨unique, unique, fun _ => rfl, nofun, fun o isO => findObjects_spec lawful (isO ▸ found)⟩
  · next tag hasTag =>
    rw [bind_eq_ok] at ok
    obtain ⟨⟨data, state⟩, message, ok⟩ := ok
    rw [bind_eq_ok] at ok
    obtain ⟨objects, found, ok⟩ := ok
    cases ok
    obtain ⟨isUpdate, hasData, uniqueData, hasState, uniqueState⟩ :=
      indexMessage_spec lawful message
    exact ⟨unique, uniqueState, nofun,
      fun _ => ⟨data, tag, rfl, uniqueData, hasData, hasState, hasTag, isUpdate⟩,
      fun o isO => findObjects_spec lawful (isO ▸ found)⟩

end Shape

theorem WireState.shape_good (lawful : crates.Lawful) {state : WireState crates}
    {shape : Shape crates} (indexed : state.shape = some shape) : shape.Good := by
  rw [WireState.shape] at indexed
  split at indexed
  · next ok =>
    cases indexed
    exact Shape.index_good lawful ok
  · cases indexed

end Phase.Codec
