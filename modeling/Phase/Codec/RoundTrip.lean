import Phase.Codec.Document
import Phase.Codec.PlainJson

/-! What the encoder sends is what the decoder gives out. -/
namespace Phase.Codec

open Fallible (bind_eq_ok guard_eq_ok ok_bind)

variable {crates : Crates}

theorem fromJson_toUTF8 (lawful : crates.Lawful) (json : RawValue crates) :
    WireState.fromJson json.1.toUTF8 = .ok ⟨json, none⟩ := by
  have text : String.fromUTF8? json.1.toUTF8 = some json.1 := by
    have valid : json.1.toUTF8.IsValidUTF8 := json.1.isValidUTF8
    rw [String.fromUTF8?, dif_pos valid]
    rfl
  simp only [WireState.fromJson, text, pure_bind, lawful.reads_value]
  rfl

theorem PatchBetween.parse_write {before after : Shape crates} {patch : Patch crates}
    (lawful : crates.Lawful) (goodAfter : after.Good) (layouts : before.layout = after.layout)
    (between : PatchBetween before after patch) : Patch.parse patch.write = .ok patch := by
  have bare (isState : patch.layout = .state) : patch.message = none ∧ patch.data = none :=
    between.bare (between.layout ▸ isState)
  have around : (patch.message.forM FieldPatch.validate = .ok () ∧
      patch.data.forM FieldPatch.validate = .ok ()) ∧
      ∀ fields, patch.message = some fields ∨ patch.data = some fields → fields.set.keys.Nodup := by
    cases isLayout : before.layout with
    | state =>
      obtain ⟨noMessage, noData⟩ := between.bare isLayout
      rw [noMessage, noData]
      exact ⟨⟨rfl, rfl⟩, by simp⟩
    | message =>
      obtain ⟨oldData, newData, -, isNew, message, data⟩ := between.message isLayout
      obtain ⟨_, -, isNew', uniqueNew, -⟩ := goodAfter.message (layouts ▸ isLayout)
      cases isNew.symm.trans isNew'
      refine ⟨⟨message.validate goodAfter.root, data.validate uniqueNew⟩, ?_⟩
      rintro fields (isFields | isFields)
      · exact (message.between isFields).set_nodup
      · exact (data.between isFields).set_nodup
  obtain ⟨⟨messageOk, dataOk⟩, aroundUnique⟩ := around
  have unique : patch.Unique := by
    rintro fields (isFields | isFields | isFields | isFields)
    · exact aroundUnique fields (.inl isFields)
    · exact aroundUnique fields (.inr isFields)
    · exact (between.state.between isFields).set_nodup
    · cases common : commonObjects before after with
      | none =>
        rw [between.noObjects common] at isFields
        cases isFields
      | some pair =>
        exact ((between.objects pair.1 pair.2 common).between isFields).set_nodup
  exact Codec.parse_write lawful unique bare messageOk dataOk
    (between.state.validate goodAfter.stateMap) (between.validateObjects goodAfter)
    between.checkConflicts

variable {state base result : WireState crates}

/-- A delta is only sent when its operations, read back, give the state. -/
theorem encodeDelta_decodes (lawful : crates.Lawful) {baseRevision revision : Nat}
    (isBase : base.revision = some baseRevision) (isRevision : state.revision = some revision)
    {before after : Shape crates} (isBefore : base.shape = some before)
    (isAfter : state.shape = some after) (layouts : before.layout = after.layout) :
    ∃ frame, encodeDelta base state baseRevision revision before after = .ok frame ∧
      decode (some base) frame = .ok state := by
  have goodBefore := WireState.shape_good lawful isBefore
  have goodAfter := WireState.shape_good lawful isAfter
  obtain ⟨patch, found, between⟩ := diff_between lawful goodBefore goodAfter layouts
  obtain ⟨node, assembled⟩ := assemble_ok lawful goodBefore goodAfter layouts between
  rw [encodeDelta, found, ok_bind, assembled, ok_bind]
  split
  · exact ⟨_, rfl, rfl⟩
  · next exact_ =>
    have text : node.text = state.json.1 := not_not.mp exact_
    dsimp only
    split
    · exact ⟨_, rfl, rfl⟩
    · refine ⟨_, rfl, ?_⟩
      have result : (WireState.fromJson node.text.toUTF8 : Except (CodecError crates) _) =
          .ok ⟨state.json, none⟩ := by
        rw [text]
        exact fromJson_toUTF8 lawful state.json
      have same : (WireState.mk state.json none).withRevision revision = state := by
        rw [WireState.withRevision, ← isRevision]
      have revisions : ¬base.revision ≠ some baseRevision := by simp [isBase]
      rw [decode, decodeDelta, if_neg revisions, if_neg (not_not.mpr rfl), isBefore]
      simp only [between.parse_write lawful goodAfter layouts, assembled, result, ok_bind, same]
      rw [if_neg (not_not.mpr rfl)]
      rfl

theorem encode_decodes (lawful : crates.Lawful) (baseline : Option (WireState crates))
    (state : WireState crates) :
    ∃ frame, encode baseline state = .ok frame ∧ decode baseline frame = .ok state := by
  cases baseline with
  | none => exact ⟨_, rfl, rfl⟩
  | some base =>
    rw [encode]
    split
    · exact ⟨_, rfl, rfl⟩
    · split
      · next isBase isRevision isBefore isAfter =>
        split
        · exact ⟨_, rfl, rfl⟩
        · next layouts =>
          exact encodeDelta_decodes lawful isBase isRevision isBefore isAfter (not_not.mp layouts)
      · exact ⟨_, rfl, rfl⟩

namespace PlainJson

/-- An object of one text, published with a revision. -/
def note (key text : String) (revision : Nat) : WireState PlainJson.crates where
  json := ⟨writeMembers [(key, ⟨quote text, lawful.quote_isValue text⟩)], isJson_writeMembers _⟩
  revision := some revision

end PlainJson

/-- The only frames for a state are the state in full and deltas that name its digest and its
revision. -/
theorem encode_frames {baseline : Option (WireState crates)} {frame : Frame crates}
    (ok : encode baseline state = .ok frame) :
    frame = .full state ∨ ∃ delta, frame = .delta delta ∧ delta.resultHash = stateHash state ∧
      state.revision = some delta.revision := by
  have full {frame : Frame crates}
      (isFull : (pure (.full state) : Except (CodecError crates) (Frame crates)) = .ok frame) :
      frame = .full state ∨ ∃ delta, frame = .delta delta ∧
        delta.resultHash = stateHash state ∧ state.revision = some delta.revision := by
    cases isFull
    exact .inl rfl
  cases baseline with
  | none => exact full ok
  | some base =>
    rw [encode] at ok
    split at ok
    · exact full ok
    · split at ok
      · next isRevision _ _ =>
        split at ok
        · exact full ok
        · rw [encodeDelta, bind_eq_ok] at ok
          obtain ⟨patch, -, ok⟩ := ok
          rw [bind_eq_ok] at ok
          obtain ⟨node, -, ok⟩ := ok
          split at ok
          · exact full ok
          · dsimp only at ok
            split at ok
            · exact full ok
            · cases ok
              exact .inr ⟨_, rfl, rfl, isRevision⟩
      · exact full ok

/-- A decoded delta has the digest and the revision that the frame names. -/
theorem decodeDelta_verified {delta : Delta crates} (ok : decodeDelta base delta = .ok result) :
    stateHash result = delta.resultHash ∧ result.revision = some delta.revision := by
  rw [decodeDelta, guard_eq_ok, guard_eq_ok] at ok
  obtain ⟨-, -, ok⟩ := ok
  split at ok
  · rw [bind_eq_ok] at ok
    obtain ⟨patch, -, ok⟩ := ok
    rw [bind_eq_ok] at ok
    obtain ⟨node, -, ok⟩ := ok
    rw [bind_eq_ok] at ok
    obtain ⟨read, -, ok⟩ := ok
    rw [guard_eq_ok] at ok
    obtain ⟨verified, ok⟩ := ok
    cases ok
    exact ⟨not_not.mp verified, rfl⟩
  · cases ok

theorem decode_published (injective : Function.Injective crates.sha256)
    {sender receiver : Option (WireState crates)} {frame : Frame crates}
    (sent : encode sender state = .ok frame) (received : decode receiver frame = .ok result) :
    result = state := by
  rcases encode_frames sent with rfl | ⟨delta, rfl, hash, revision⟩
  · cases received
    rfl
  · cases receiver with
    | none => cases received
    | some base =>
      obtain ⟨resultHash, resultRevision⟩ := decodeDelta_verified received
      have text : result.json.1 = state.json.1 := injective (resultHash.trans hash)
      obtain ⟨json, rev⟩ := result
      obtain ⟨json', rev'⟩ := state
      simp only at text resultRevision revision
      rw [resultRevision, revision, Subtype.ext text]

/-- A sender and one receiver: what was published, every frame that was ever sent, and the
receiver's baseline. -/
structure Channel (crates : Crates) where
  published : List (WireState crates)
  sent : List (Frame crates)
  baseline : Option (WireState crates)

/-- The sender may encode against anything; a frame may be lost, repeated or overtaken, and a
refused one changes nothing. -/
inductive Channel.Step : Channel crates → Channel crates → Prop
  | publish (channel : Channel crates) (against : Option (WireState crates))
      (state : WireState crates) (frame : Frame crates) (ok : encode against state = .ok frame) :
      Step channel { channel with
        published := state :: channel.published, sent := frame :: channel.sent }
  | deliver (channel : Channel crates) (frame : Frame crates) (mem : frame ∈ channel.sent)
      (result : WireState crates) (ok : decode channel.baseline frame = .ok result) :
      Step channel { channel with baseline := some result }
  | refuse (channel : Channel crates) (frame : Frame crates) (mem : frame ∈ channel.sent)
      (error : CodecError crates) (failed : decode channel.baseline frame = .error error) :
      Step channel channel

inductive Channel.Run : Channel crates → Prop
  | start : Run ⟨[], [], none⟩
  | step {a b : Channel crates} : Run a → Step a b → Run b

/-- Every frame is some published state's, and the receiver holds a published state. -/
def Channel.Valid (channel : Channel crates) : Prop :=
  (∀ frame ∈ channel.sent, ∃ state ∈ channel.published, ∃ against,
    encode against state = .ok frame) ∧
  ∀ held, channel.baseline = some held → held ∈ channel.published

theorem Channel.step_valid (injective : Function.Injective crates.sha256) {a b : Channel crates}
    (step : Step a b) (valid : a.Valid) : b.Valid := by
  obtain ⟨frames, holds⟩ := valid
  cases step with
  | publish against state frame ok =>
    refine ⟨fun sent mem => ?_, fun held isHeld => List.mem_cons_of_mem _ (holds held isHeld)⟩
    rcases List.mem_cons.mp mem with rfl | old
    · exact ⟨state, List.mem_cons_self, against, ok⟩
    · obtain ⟨earlier, memEarlier, rest⟩ := frames sent old
      exact ⟨earlier, List.mem_cons_of_mem _ memEarlier, rest⟩
  | deliver frame mem result ok =>
    refine ⟨frames, fun held isHeld => ?_⟩
    cases isHeld
    obtain ⟨state, memState, against, sent⟩ := frames frame mem
    rw [decode_published injective sent ok]
    exact memState
  | refuse frame mem error failed => exact ⟨frames, holds⟩

theorem Channel.run_valid (injective : Function.Injective crates.sha256) {channel : Channel crates}
    (run : Run channel) : channel.Valid := by
  induction run with
  | start => exact ⟨nofun, nofun⟩
  | step _ step ih => exact step_valid injective step ih

end Phase.Codec
