import Phase.Codec.Apply

/-! The patch between two documents: it is found without an error, passes its own checks and
applies to the first document. -/
namespace Phase.Codec

open Fallible (bind_eq_ok ok_bind)

variable {crates : Crates} {before after : Shape crates} {patch : Patch crates}

/-- The operations on one map as a patch carries them: left out when there are none. -/
def Carries (old new : RawMap crates) (child : Option String)
    (carried : Option (FieldPatch crates)) : Prop :=
  ∃ fields, Between old new child fields ∧
    carried = (some fields).filter fun fields => !fields.isEmpty

structure PatchBetween (before after : Shape crates) (patch : Patch crates) : Prop where
  layout : patch.layout = before.layout
  state : Carries before.stateMap.rawMap after.stateMap.rawMap
    ((commonObjects before after).map fun _ => "objects") patch.state
  noObjects : commonObjects before after = none → patch.objects = none
  objects : ∀ old new, commonObjects before after = some (old, new) →
    Carries old.rawMap new.rawMap none patch.objects
  bare : before.layout = .state → patch.message = none ∧ patch.data = none
  message : before.layout = .message → ∃ oldData newData, before.data = some oldData ∧
    after.data = some newData ∧
    Carries before.root.rawMap after.root.rawMap (some "data") patch.message ∧
    Carries oldData.rawMap newData.rawMap (some "state") patch.data

theorem commonObjects_eq_some {old new : MapIndex crates (StateHash crates)} :
    commonObjects before after = some (old, new) ↔
      before.objects = some old ∧ after.objects = some new := by
  rw [commonObjects]
  cases before.objects with
  | none => simp
  | some o =>
    cases after.objects with
    | none => simp
    | some n => simp

theorem shared_objects (goodBefore : before.Good) (goodAfter : after.Good) :
    Shared before.stateMap.rawMap after.stateMap.rawMap
      ((commonObjects before after).map fun _ => "objects") := by
  intro key isChild
  obtain ⟨⟨old, new⟩, common, rfl⟩ := Option.map_eq_some_iff.mp isChild
  obtain ⟨isOld, isNew⟩ := commonObjects_eq_some.mp common
  exact ⟨(goodBefore.objects old isOld).2.1, (goodAfter.objects new isNew).2.1⟩

variable {new old : RawMap crates} {child : Option String} {carried : Option (FieldPatch crates)}

theorem diffFields_carries (uniqueOld : old.keys.Nodup) (uniqueNew : new.keys.Nodup)
    (shared : Shared old new child)
    (equivalent : String → RawValue crates → RawValue crates → Bool) :
    ∃ fields, diffFieldsBy old new child equivalent = .ok fields ∧
      Carries old new child ((some fields).filter fun fields => !fields.isEmpty) :=
  ⟨_, diffFieldsBy_eq uniqueNew child equivalent, _,
    fieldsBetween_between uniqueOld uniqueNew shared, rfl⟩

theorem diffObjects_carries (lawful : crates.Lawful) {old new : MapIndex crates (StateHash crates)}
    (uniqueOld : old.rawMap.keys.Nodup) (uniqueNew : new.rawMap.keys.Nodup) :
    ∃ fields, diffObjects old new = .ok fields ∧
      Carries old.rawMap new.rawMap none ((some fields).filter fun fields => !fields.isEmpty) := by
  rw [diffObjects, MapIndex.borrow_eq lawful, ok_bind, MapIndex.borrow_eq lawful, ok_bind]
  exact diffFields_carries uniqueOld uniqueNew (fun _ isChild => by cases isChild) _

section
variable (lawful : crates.Lawful) (goodBefore : before.Good) (goodAfter : after.Good)
include lawful goodBefore goodAfter

theorem diffCommon_carries :
    ∃ objects, diffCommon before after = .ok objects ∧
      (commonObjects before after = none → objects = none) ∧
      ∀ old new, commonObjects before after = some (old, new) →
        Carries old.rawMap new.rawMap none (objects.filter fun fields => !fields.isEmpty) := by
  rw [diffCommon]
  cases common : commonObjects before after with
  | none => exact ⟨none, rfl, fun _ => rfl, fun _ _ same => by cases same⟩
  | some pair =>
    obtain ⟨old, new⟩ := pair
    obtain ⟨isOld, isNew⟩ := commonObjects_eq_some.mp common
    obtain ⟨fields, ok, carries⟩ := diffObjects_carries lawful
      (goodBefore.objects old isOld).1 (goodAfter.objects new isNew).1
    simp only [ok, ok_bind]
    refine ⟨some fields, rfl, ?_, ?_⟩
    · intro same
      cases same
    · intro old' new' same
      cases same
      exact carries

theorem diffMessage_carries (layouts : before.layout = after.layout)
    (isMessage : before.layout = .message) :
    ∃ message data oldData newData, diffMessage before after = .ok (some message, some data) ∧
      before.data = some oldData ∧ after.data = some newData ∧
      Carries before.root.rawMap after.root.rawMap (some "data")
        ((some message).filter fun fields => !fields.isEmpty) ∧
      Carries oldData.rawMap newData.rawMap (some "state")
        ((some data).filter fun fields => !fields.isEmpty) := by
  obtain ⟨oldData, -, isOld, uniqueOld, dataOld, stateOld, -⟩ := goodBefore.message isMessage
  obtain ⟨newData, -, isNew, uniqueNew, dataNew, stateNew, -⟩ :=
    goodAfter.message (layouts ▸ isMessage)
  have sharedData : Shared before.root.rawMap after.root.rawMap (some "data") := by
    intro key isChild
    cases isChild
    exact ⟨dataOld, dataNew⟩
  have sharedState : Shared oldData.rawMap newData.rawMap (some "state") := by
    intro key isChild
    cases isChild
    exact ⟨stateOld, stateNew⟩
  obtain ⟨message, messageOk, messageCarries⟩ := diffFields_carries goodBefore.root
    goodAfter.root sharedData fun _ old new => decide (old = new)
  obtain ⟨data, dataOk, dataCarries⟩ := diffFields_carries uniqueOld uniqueNew sharedState
    fun _ old new => decide (old = new)
  refine ⟨message, data, oldData, newData, ?_, isOld, isNew, messageCarries, dataCarries⟩
  simp only [diffMessage, isMessage, MapIndex.borrow_eq lawful, diffFields, messageOk, isOld,
    isNew, dataOk, ok_bind]
  rfl

theorem diff_between (layouts : before.layout = after.layout) :
    ∃ patch, diff before after = .ok patch ∧ PatchBetween before after patch := by
  obtain ⟨state, stateOk, stateCarries⟩ := diffFields_carries goodBefore.stateMap
    goodAfter.stateMap (shared_objects goodBefore goodAfter) fun _ old new => decide (old = new)
  obtain ⟨objects, objectsOk, noObjects, objectsCarry⟩ :=
    diffCommon_carries lawful goodBefore goodAfter
  simp only [diff, MapIndex.borrow_eq lawful, ok_bind, diffFields, stateOk, objectsOk]
  have noneLeft (none_ : commonObjects before after = none) :
      (objects.filter fun fields => !fields.isEmpty) = none := by
    rw [noObjects none_]
    rfl
  cases isLayout : before.layout with
  | state =>
    have bare : diffMessage before after = .ok (none, none) := by
      rw [diffMessage, isLayout]
      rfl
    rw [bare]
    refine ⟨_, rfl, isLayout.symm, stateCarries, noneLeft, objectsCarry,
      fun _ => ⟨rfl, rfl⟩, fun other => ?_⟩
    rw [isLayout] at other
    cases other
  | message =>
    obtain ⟨message, data, oldData, newData, ok, isOld, isNew, messageCarries, dataCarries⟩ :=
      diffMessage_carries lawful goodBefore goodAfter layouts isLayout
    rw [ok]
    refine ⟨_, rfl, isLayout.symm, stateCarries, noneLeft, objectsCarry, fun other => ?_,
      fun _ => ⟨oldData, newData, isOld, isNew, messageCarries, dataCarries⟩⟩
    rw [isLayout] at other
    cases other

end

theorem Carries.between (carries : Carries old new child carried) {fields : FieldPatch crates}
    (isFields : carried = some fields) : Between old new child fields := by
  obtain ⟨found, between, rfl⟩ := carries
  rw [Option.filter_eq_some_iff] at isFields
  cases isFields.1
  exact between

theorem conflict_eq {parent : Option (FieldPatch crates)} {key : String} {child : Bool}
    (free : child = true → ∀ fields, parent = some fields →
      key ∉ fields.set.keys ∧ key ∉ fields.remove) :
    conflict parent key child = .ok () := by
  rw [conflict]
  cases parent with
  | none => rfl
  | some fields =>
    cases child with
    | false => rfl
    | true =>
      obtain ⟨notSet, notRemoved⟩ := free rfl fields rfl
      have unset : (fields.set.get key).isSome = false := by
        rw [Bool.eq_false_iff]
        exact fun isSet => notSet (RawMap.get_isSome.mp isSet)
      simp [unset, notRemoved]
      rfl

theorem Carries.validate (carries : Carries old new child carried) (unique : new.keys.Nodup) :
    carried.forM FieldPatch.validate = .ok () := by
  cases isFields : carried with
  | none => rfl
  | some fields => exact (carries.between isFields).validate unique

theorem PatchBetween.checkConflicts (between : PatchBetween before after patch) :
    patch.checkConflicts = .ok () := by
  have messageFree : conflict patch.message "data"
      (patch.data.isSome || patch.state.isSome || patch.objects.isSome) = .ok () := by
    refine conflict_eq fun _ fields isFields => ?_
    cases isLayout : before.layout with
    | state =>
      rw [(between.bare isLayout).1] at isFields
      cases isFields
    | message =>
      obtain ⟨_, _, -, -, message, -⟩ := between.message isLayout
      exact (message.between isFields).child_free _ rfl
  have dataFree : conflict patch.data "state" (patch.state.isSome || patch.objects.isSome) =
      .ok () := by
    refine conflict_eq fun _ fields isFields => ?_
    cases isLayout : before.layout with
    | state =>
      rw [(between.bare isLayout).2] at isFields
      cases isFields
    | message =>
      obtain ⟨_, _, -, -, -, data⟩ := between.message isLayout
      exact (data.between isFields).child_free _ rfl
  have stateFree : conflict patch.state "objects" patch.objects.isSome = .ok () := by
    refine conflict_eq fun hasObjects fields isFields => ?_
    cases common : commonObjects before after with
    | none => simp [between.noObjects common] at hasObjects
    | some pair => exact (between.state.between isFields).child_free _ (by rw [common]; rfl)
  rw [Patch.checkConflicts, messageFree, ok_bind, dataFree, ok_bind, stateFree]

/-- Every body to upsert is one of the second document's objects. -/
theorem PatchBetween.validateObjects (between : PatchBetween before after patch)
    (goodAfter : after.Good) : patch.objects.forM FieldPatch.validateObjects = .ok () := by
  cases isObjects : patch.objects with
  | none => rfl
  | some objects =>
    cases common : commonObjects before after with
    | none =>
      rw [between.noObjects common] at isObjects
      cases isObjects
    | some pair =>
      obtain ⟨old, new⟩ := pair
      obtain ⟨unique, -, bodies⟩ := goodAfter.objects new (commonObjects_eq_some.mp common).2
      have fields := (between.objects old new common).between isObjects
      have all : ¬(!(objects.set.entries.all fun entry => startsObject entry.2)) = true := by
        simp only [Bool.not_eq_true', Bool.not_eq_false, List.all_eq_true]
        intro entry mem
        obtain ⟨held, memHeld, rfl⟩ := List.mem_map.mp (fields.set_mem entry mem)
        exact bodies held memHeld
      have valid : objects.validate = .ok () := fields.validate unique
      rw [Option.forM, FieldPatch.validateObjects, valid, if_neg all]
      rfl

theorem Carries.applyFields (carries : Carries old new child carried) (unique : new.keys.Nodup) :
    ∃ entries, applyFields old carried = .ok (.map entries) ∧
      ∀ key, key ∈ old.keys → key ∈ new.keys → key ∈ entries.map Prod.fst := by
  obtain ⟨fields, between, rfl⟩ := carries
  exact between.applyFields_ok unique

theorem assembleState_ok (lawful : crates.Lawful) (goodBefore : before.Good)
    (goodAfter : after.Good) (between : PatchBetween before after patch) :
    ∃ node, assembleState before patch = .ok node := by
  obtain ⟨entries, applied, kept⟩ := between.state.applyFields goodAfter.stateMap
  simp only [assembleState, MapIndex.borrow_eq lawful, applied, ok_bind]
  cases isObjects : patch.objects with
  | none => exact ⟨_, rfl⟩
  | some objects =>
    cases common : commonObjects before after with
    | none =>
      rw [between.noObjects common] at isObjects
      cases isObjects
    | some pair =>
      obtain ⟨old, new⟩ := pair
      obtain ⟨isOld, isNew⟩ := commonObjects_eq_some.mp common
      obtain ⟨-, inOld, -⟩ := goodBefore.objects old isOld
      obtain ⟨uniqueNew, inNew, -⟩ := goodAfter.objects new isNew
      obtain ⟨bodies, appliedObjects, -⟩ :=
        ((between.objects old new common).between isObjects).applyMap_ok uniqueNew
      simp only [isOld, appliedObjects, ok_bind]
      exact replaceChild_ok (kept "objects" inOld inNew) _

/-- Neither the type's removal nor another type is among the operations on a message. -/
theorem keepsType (goodAfter : after.Good) (isMessage : after.layout = .message)
    {message : FieldPatch crates}
    (between : Between before.root.rawMap after.root.rawMap child message) :
    changesType message = false := by
  obtain ⟨-, tag, -, -, -, -, hasTag, isUpdate⟩ := goodAfter.message isMessage
  have notRemoved : "type" ∉ message.remove := fun mem =>
    (between.remove_mem _ mem).2 (RawMap.mem_keys_of_get hasTag)
  rw [changesType, Bool.or_eq_false_iff]
  refine ⟨by simpa using notRemoved, ?_⟩
  cases isSet : message.set.get "type" with
  | none => rfl
  | some raw =>
    have here := between.set_mem _ (RawMap.mem_of_get isSet)
    have same : some raw = some tag := (RawMap.get_of_mem goodAfter.root here).symm.trans hasTag
    cases same
    simp [isUpdate]

theorem replaceIf_ok {entries : List (String × Node crates)} {key : String}
    (here : key ∈ entries.map Prod.fst) (child : Node crates) (touched : Bool) :
    ∃ node, replaceIf touched (.map entries) key child = .ok node := by
  cases touched with
  | true => exact replaceChild_ok here child
  | false => exact ⟨_, rfl⟩

theorem assemble_ok (lawful : crates.Lawful) (goodBefore : before.Good) (goodAfter : after.Good)
    (layouts : before.layout = after.layout) (between : PatchBetween before after patch) :
    ∃ node, assemble before patch = .ok node := by
  obtain ⟨state, stateOk⟩ := assembleState_ok lawful goodBefore goodAfter between
  rw [assemble]
  simp only [between.checkConflicts, stateOk, ok_bind, between.layout]
  cases isLayout : before.layout with
  | state =>
    obtain ⟨noMessage, noData⟩ := between.bare isLayout
    simp only [noMessage, noData]
    exact ⟨state, rfl⟩
  | message =>
    obtain ⟨oldData, newData, isOld, isNew, messageCarries, dataCarries⟩ :=
      between.message isLayout
    obtain ⟨_, -, isOld', -, dataOld, stateOld, -⟩ := goodBefore.message isLayout
    obtain ⟨_, -, isNew', uniqueNew, dataNew, stateNew, -⟩ :=
      goodAfter.message (layouts ▸ isLayout)
    cases isOld.symm.trans isOld'
    cases isNew.symm.trans isNew'
    obtain ⟨dataEntries, dataOk, dataKept⟩ := dataCarries.applyFields uniqueNew
    obtain ⟨data, replacedData⟩ := replaceIf_ok (dataKept "state" stateOld stateNew) state
      (patch.state.isSome || patch.objects.isSome)
    obtain ⟨entries, messageOk, kept⟩ := messageCarries.applyFields goodAfter.root
    obtain ⟨message, replaced⟩ := replaceIf_ok (kept "data" dataOld dataNew) data
      (patch.data.isSome || patch.state.isSome || patch.objects.isSome)
    have sameType : ¬(patch.message.any changesType) = true := by
      cases isMessage : patch.message with
      | none => simp
      | some fields =>
        simp [keepsType goodAfter (layouts ▸ isLayout) (messageCarries.between isMessage)]
    simp only [isOld, MapIndex.borrow_eq lawful, dataOk, replacedData, messageOk, replaced,
      if_neg sameType, ok_bind]
    exact ⟨message, rfl⟩

end Phase.Codec
