import Phase.Codec.Between

/-! An operation document is read back as the patch it was written from. -/
namespace Phase.Codec
open RawMap

open Fallible (ok_bind)

variable {crates : Crates}

section
variable (lawful : crates.Lawful)

def quoteValue (text : String) : RawValue crates :=
  ⟨crates.quote text, lawful.quote_isValue text⟩

def stringsValue (texts : List String) : RawValue crates :=
  ⟨writeStrings crates texts, by
    have value := lawful.array_isValue (texts.map (quoteValue lawful))
    rw [List.map_map] at value
    exact value⟩

theorem readStrings_stringsValue (texts : List String) :
    readStrings (stringsValue lawful texts) = .ok texts := by
  have items := lawful.reads_array (texts.map (quoteValue lawful))
  rw [List.map_map] at items
  have read : crates.array (stringsValue lawful texts).1 = some (texts.map (quoteValue lawful)) :=
    items
  have each : (texts.map (quoteValue lawful)).mapM
      (fun item : RawValue crates => orJson (crates.string item.1)) =
        (.ok ((texts.map (quoteValue lawful)).map fun item => (crates.string item.1).getD "") :
          Except (CodecError crates) _) := by
    refine Fallible.mapM_eq_ok fun item mem => ?_
    obtain ⟨text, -, rfl⟩ := List.mem_map.mp mem
    rw [quoteValue, lawful.reads_string]
    rfl
  rw [readStrings, read, orJson, ok_bind, each, List.map_map]
  congr 1
  conv_rhs => rw [← List.map_id texts]
  refine List.map_congr_left fun text _ => ?_
  simp [quoteValue, lawful.reads_string]

def objectValue (entries : List (String × RawValue crates)) : RawValue crates :=
  ⟨writeObject crates (entries.map fun (key, value) => (key, value.1)),
    lawful.object_isValue entries⟩

theorem read_objectValue {map : RawMap crates} (unique : map.keys.Nodup) :
    read (objectValue lawful map.entries) = .ok map := by
  have read : crates.object (objectValue lawful map.entries) = some map.entries :=
    lawful.reads_object map.entries
  have new : new map.entries = .ok map := if_pos unique
  rw [RawMap.read, read, orJson, ok_bind]
  simp only [new]
  rfl

theorem startsObject_objectValue (entries : List (String × RawValue crates)) :
    startsObject (objectValue lawful entries) := by
  simp [startsObject, objectValue, writeObject]

theorem readRecord_objectValue {entries : List (String × RawValue crates)} {names : List String}
    (known : ∀ entry ∈ entries, entry.1 ∈ names) (unique : (entries.map Prod.fst).Nodup) :
    readRecord names (objectValue lawful entries) = .ok ⟨entries⟩ := by
  have opened : ¬(objectValue lawful entries).1.toList.head? ≠ some '\x7b' := by
    simpa [startsObject] using startsObject_objectValue lawful entries
  have read : crates.object (objectValue lawful entries) = some entries :=
    lawful.reads_object entries
  have all : ¬(!(entries.all fun entry => entry.1 ∈ names)) = true := by simpa using known
  have distinct : ¬(!decide (entries.map Prod.fst).Nodup) = true := by simpa using unique
  rw [readRecord, if_neg opened, read, orJson, ok_bind, if_neg all, if_neg distinct]
  rfl

end

/-- The members written for a patch of one map. -/
def fieldMembers (lawful : crates.Lawful) (setName : String) (patch : FieldPatch crates) :
    List (String × RawValue crates) :=
  (if patch.set.isEmpty then [] else [(setName, objectValue lawful patch.set.entries)]) ++
  (if patch.remove.isEmpty then [] else [("remove", stringsValue lawful patch.remove)]) ++
  (patch.order.map fun order => ("order", stringsValue lawful order)).toList

def fieldValue (lawful : crates.Lawful) (setName : String) (patch : FieldPatch crates) :
    RawValue crates :=
  objectValue lawful (fieldMembers lawful setName patch)

theorem fieldValue_text (lawful : crates.Lawful) (setName : String) (patch : FieldPatch crates) :
    (fieldValue lawful setName patch).1 = patch.write setName := by
  simp only [fieldValue, objectValue, fieldMembers, FieldPatch.write]
  cases patch.order <;> cases patch.set.isEmpty <;> cases patch.remove.isEmpty <;> rfl

theorem read_fieldValue (lawful : crates.Lawful) {setName : String} {patch : FieldPatch crates}
    (unique : patch.set.keys.Nodup) (notRemove : setName ≠ "remove") (notOrder : setName ≠ "order") :
    FieldPatch.read setName (fieldValue lawful setName patch) = .ok patch := by
  have known : ∀ entry ∈ fieldMembers lawful setName patch,
      entry.1 ∈ [setName, "remove", "order"] := by
    simp only [fieldMembers]
    cases patch.order <;> cases patch.set.isEmpty <;> cases patch.remove.isEmpty <;> simp
  have distinct : ((fieldMembers lawful setName patch).map Prod.fst).Nodup := by
    simp only [fieldMembers]
    cases patch.order <;> cases patch.set.isEmpty <;> cases patch.remove.isEmpty <;>
      simp [notRemove, notOrder]
  have setRead : readMember ⟨fieldMembers lawful setName patch⟩ setName {} read =
      .ok patch.set := by
    cases empty : patch.set.isEmpty with
    | true =>
      have isDefault : patch.set = {} := by
        obtain ⟨⟨entries⟩, _, _⟩ := patch
        simpa [isEmpty] using empty
      have absent : get ⟨fieldMembers lawful setName patch⟩ setName = none := by
        rw [← Option.isNone_iff_eq_none, get_isNone, keys]
        simp only [fieldMembers, empty]
        cases patch.order <;> cases patch.remove.isEmpty <;> simp [notRemove, notOrder]
      rw [readMember, absent, isDefault]
      rfl
    | false =>
      have present : get ⟨fieldMembers lawful setName patch⟩ setName =
          some (objectValue lawful patch.set.entries) := by
        simp [RawMap.get, fieldMembers, empty]
      rw [readMember, present]
      exact read_objectValue lawful unique
  have removeRead : readMember ⟨fieldMembers lawful setName patch⟩ "remove" [] readStrings =
      .ok patch.remove := by
    cases empty : patch.remove.isEmpty with
    | true =>
      have absent : get ⟨fieldMembers lawful setName patch⟩ "remove" = none := by
        rw [← Option.isNone_iff_eq_none, get_isNone, keys]
        simp only [fieldMembers, empty]
        cases patch.order <;> cases patch.set.isEmpty <;> simp [notRemove.symm]
      rw [readMember, absent, List.isEmpty_iff.mp empty]
      rfl
    | false =>
      have present : get ⟨fieldMembers lawful setName patch⟩ "remove" =
          some (stringsValue lawful patch.remove) := by
        simp only [RawMap.get, fieldMembers, empty]
        cases patch.set.isEmpty <;> simp [notRemove]
      rw [readMember, present]
      exact readStrings_stringsValue lawful patch.remove
  have orderRead : readMember ⟨fieldMembers lawful setName patch⟩ "order" none
      (fun raw => some <$> readStrings raw) = .ok patch.order := by
    cases isOrder : patch.order with
    | none =>
      have absent : get ⟨fieldMembers lawful setName patch⟩ "order" = none := by
        rw [← Option.isNone_iff_eq_none, get_isNone, keys]
        simp only [fieldMembers, isOrder]
        cases patch.remove.isEmpty <;> cases patch.set.isEmpty <;> simp [notOrder.symm]
      rw [readMember, absent]
      rfl
    | some order =>
      have present : get ⟨fieldMembers lawful setName patch⟩ "order" =
          some (stringsValue lawful order) := by
        simp only [RawMap.get, fieldMembers, isOrder]
        cases patch.remove.isEmpty <;> cases patch.set.isEmpty <;> simp [notOrder]
      rw [readMember, present]
      simp only [readStrings_stringsValue]
      rfl
  rw [FieldPatch.read, fieldValue, readRecord_objectValue lawful known distinct, ok_bind, setRead,
    removeRead, orderRead]
  rfl

def patchMembers (lawful : crates.Lawful) (patch : Patch crates) :
    List (String × RawValue crates) :=
  [("layout", quoteValue lawful patch.layout.name)] ++
  (patch.message.map fun fields => ("message", fieldValue lawful "set" fields)).toList ++
  (patch.data.map fun fields => ("data", fieldValue lawful "set" fields)).toList ++
  (patch.state.map fun fields => ("state", fieldValue lawful "set" fields)).toList ++
  (patch.objects.map fun objects => ("objects", fieldValue lawful "upsert" objects)).toList

theorem patch_text (lawful : crates.Lawful) (patch : Patch crates) :
    (objectValue lawful (patchMembers lawful patch)).1 = patch.write := by
  have member (name setName : String) (carried : Option (FieldPatch crates)) :
      (carried.map fun fields => (name, fieldValue lawful setName fields)).toList.map
        (fun entry => (entry.1, entry.2.1)) =
      (carried.map fun fields => (name, fields.write setName)).toList := by
    cases carried with
    | none => rfl
    | some fields =>
      rw [Option.map_some, Option.map_some, Option.toList_some, Option.toList_some,
        List.map_singleton, fieldValue_text]
  simp only [objectValue, patchMembers, Patch.write, List.map_append, member]
  rfl

theorem readLayout (lawful : crates.Lawful) (layout : PatchLayout) :
    PatchLayout.read (quoteValue lawful layout.name) = .ok layout := by
  rw [PatchLayout.read, quoteValue, lawful.reads_string]
  cases layout with
  | state => rfl
  | message => rfl

/-- The sets of every part have unique keys. -/
def Patch.Unique (patch : Patch crates) : Prop :=
  ∀ fields, patch.message = some fields ∨ patch.data = some fields ∨ patch.state = some fields ∨
    patch.objects = some fields → fields.set.keys.Nodup

theorem readFields_eq (lawful : crates.Lawful) {record : RawMap crates} {name setName : String}
    {carried : Option (FieldPatch crates)}
    (member : record.get name = carried.map (fieldValue lawful setName))
    (unique : ∀ fields, carried = some fields → fields.set.keys.Nodup)
    (notRemove : setName ≠ "remove") (notOrder : setName ≠ "order") :
    Patch.readFields record name setName = .ok carried := by
  rw [Patch.readFields, readMember, member]
  cases carried with
  | none => rfl
  | some fields =>
    simp only [Option.map_some, read_fieldValue lawful (unique fields rfl) notRemove notOrder]
    rfl

/-- Reading a written patch gives it back, when it passes the checks. -/
theorem parse_write (lawful : crates.Lawful) {patch : Patch crates} (unique : patch.Unique)
    (bare : patch.layout = .state → patch.message = none ∧ patch.data = none)
    (message : patch.message.forM FieldPatch.validate = .ok ())
    (data : patch.data.forM FieldPatch.validate = .ok ())
    (state : patch.state.forM FieldPatch.validate = .ok ())
    (objects : patch.objects.forM FieldPatch.validateObjects = .ok ())
    (conflicts : patch.checkConflicts = .ok ()) : Patch.parse patch.write = .ok patch := by
  have known : ∀ entry ∈ patchMembers lawful patch,
      entry.1 ∈ ["layout", "message", "data", "state", "objects"] := by
    simp only [patchMembers]
    cases patch.message <;> cases patch.data <;> cases patch.state <;> cases patch.objects <;> simp
  have distinct : ((patchMembers lawful patch).map Prod.fst).Nodup := by
    simp only [patchMembers]
    cases patch.message <;> cases patch.data <;> cases patch.state <;> cases patch.objects <;> simp
  have members : get ⟨patchMembers lawful patch⟩ "layout" =
        some (quoteValue lawful patch.layout.name) ∧
      get ⟨patchMembers lawful patch⟩ "message" = patch.message.map (fieldValue lawful "set") ∧
      get ⟨patchMembers lawful patch⟩ "data" = patch.data.map (fieldValue lawful "set") ∧
      get ⟨patchMembers lawful patch⟩ "state" = patch.state.map (fieldValue lawful "set") ∧
      get ⟨patchMembers lawful patch⟩ "objects" =
        patch.objects.map (fieldValue lawful "upsert") := by
    simp only [RawMap.get, patchMembers]
    cases patch.message <;> cases patch.data <;> cases patch.state <;> cases patch.objects <;> simp
  obtain ⟨hasLayout, hasMessage, hasData, hasState, hasObjects⟩ := members
  have readMessage := readFields_eq lawful hasMessage (fun f h => unique f (.inl h))
    (by decide) (by decide)
  have readData := readFields_eq lawful hasData (fun f h => unique f (.inr (.inl h)))
    (by decide) (by decide)
  have readState := readFields_eq lawful hasState (fun f h => unique f (.inr (.inr (.inl h))))
    (by decide) (by decide)
  have readObjects := readFields_eq lawful hasObjects
    (fun f h => unique f (.inr (.inr (.inr h)))) (by decide) (by decide)
  have layouts : ¬(decide (patch.layout = .state) &&
      (patch.message.isSome || patch.data.isSome)) = true := by
    cases isLayout : patch.layout with
    | state => simp [bare isLayout]
    | message => simp
  rw [← patch_text lawful, Patch.parse, readRecord_objectValue lawful known distinct, ok_bind,
    hasLayout]
  simp only [readLayout lawful, readMessage, readData, readState, readObjects, ok_bind]
  rw [if_neg layouts, message, data, state, objects, conflicts]
  rfl

end Phase.Codec
