import Phase.Codec.Types

/-! Operation documents: writing and reading them, applying them to a document's maps, and
finding the operations between two documents; and the frames that carry them, FULL or DELTA. -/
namespace Phase.Codec

variable {crates : Crates}

def writeStrings (crates : Crates) (texts : List String) : String :=
  writeArray (texts.map crates.quote)

/-- `setName` is `set` for fields and `upsert` for objects; empty members are left out. -/
def FieldPatch.write (setName : String) (patch : FieldPatch crates) : String :=
  writeObject crates <|
    (if patch.set.isEmpty then [] else [(setName, patch.set.write)]) ++
    (if patch.remove.isEmpty then [] else [("remove", writeStrings crates patch.remove)]) ++
    (patch.order.map fun order => ("order", writeStrings crates order)).toList

def PatchLayout.name : PatchLayout → String
  | .state => "State"
  | .message => "Message"

def Patch.write (patch : Patch crates) : String :=
  writeObject crates <|
    [("layout", crates.quote patch.layout.name)] ++
    (patch.message.map fun fields => ("message", fields.write "set")).toList ++
    (patch.data.map fun fields => ("data", fields.write "set")).toList ++
    (patch.state.map fun fields => ("state", fields.write "set")).toList ++
    (patch.objects.map fun objects => ("objects", objects.write "upsert")).toList

/-- The members of a record: known names only, each at most once. -/
def readRecord (names : List String) (text : String) :
    Except (CodecError crates) (RawMap crates) := do
  if text.toList.head? ≠ some '\x7b' then throw (.malformed "record must be a JSON object")
  let entries ← orJson (crates.object text)
  if !(entries.all fun entry => entry.1 ∈ names) then throw .json
  if !decide (entries.map Prod.fst).Nodup then throw .json
  return { entries }

def readStrings (raw : RawValue crates) : Except (CodecError crates) (List String) := do
  let items ← orJson (crates.array raw)
  items.mapM fun item : RawValue crates => orJson (crates.string item.1)

/-- A member that is left out has its default. -/
def readMember {α : Type} (record : RawMap crates) (name : String) (default : α)
    (read : RawValue crates → Except (CodecError crates) α) : Except (CodecError crates) α :=
  match record.get name with
  | none => return default
  | some raw => read raw

def FieldPatch.read (setName : String) (text : String) :
    Except (CodecError crates) (FieldPatch crates) := do
  let record ← readRecord [setName, "remove", "order"] text
  let set ← readMember record setName {} RawMap.read
  let remove ← readMember record "remove" [] readStrings
  let order ← readMember record "order" none fun raw => some <$> readStrings raw
  return { set, remove, order }

def PatchLayout.ofName : String → Option PatchLayout
  | "State" => some .state
  | "Message" => some .message
  | _ => none

/-- A unit variant is its name, or an object of its name and `null`. -/
def PatchLayout.read (raw : RawValue crates) : Except (CodecError crates) PatchLayout :=
  match crates.string raw with
  | some name => orJson (PatchLayout.ofName name)
  | none =>
    match crates.object raw with
    | some [(name, value)] =>
      if value.1 = "null" then orJson (PatchLayout.ofName name) else throw .json
    | _ => throw .json

def validateOperations (set : RawMap crates) (remove : List String)
    (order : Option (List String)) : Except (CodecError crates) Unit := do
  if !decide remove.Nodup then throw (.invalidDelta "duplicate removal key")
  if remove.any fun key => (set.get key).isSome then throw (.invalidDelta "set/remove overlap")
  if order.any fun keys => !decide keys.Nodup then throw (.invalidDelta "duplicate order key")

def FieldPatch.validate (patch : FieldPatch crates) : Except (CodecError crates) Unit :=
  validateOperations patch.set patch.remove patch.order

def FieldPatch.validateObjects (patch : FieldPatch crates) : Except (CodecError crates) Unit := do
  patch.validate
  if !(patch.set.entries.all fun entry => startsObject entry.2) then
    throw (.invalidDelta "upsert body must be an object")

/-- Whether a patch of the parent touches the child that has operations of its own. -/
def conflict (parent : Option (FieldPatch crates)) (key : String) (child : Bool) :
    Except (CodecError crates) Unit :=
  if parent.any fun parent => child && ((parent.set.get key).isSome || key ∈ parent.remove) then
    throw (.invalidDelta "parent/child operation conflict")
  else return ()

namespace Patch

def checkConflicts (patch : Patch crates) : Except (CodecError crates) Unit := do
  conflict patch.message "data" (patch.data.isSome || patch.state.isSome || patch.objects.isSome)
  conflict patch.data "state" (patch.state.isSome || patch.objects.isSome)
  conflict patch.state "objects" patch.objects.isSome

def readFields (record : RawMap crates) (name setName : String) :
    Except (CodecError crates) (Option (FieldPatch crates)) :=
  readMember record name none fun raw => some <$> FieldPatch.read setName raw

def parse (text : String) : Except (CodecError crates) (Patch crates) := do
  let record ← readRecord ["layout", "message", "data", "state", "objects"] text
  let some layoutRaw := record.get "layout" | throw .json
  let layout ← PatchLayout.read layoutRaw
  let message ← readFields record "message" "set"
  let data ← readFields record "data" "set"
  let state ← readFields record "state" "set"
  let objects ← readFields record "objects" "upsert"
  if layout = .state && (message.isSome || data.isSome) then
    throw (.invalidDelta "bare state has message/data operations")
  message.forM FieldPatch.validate
  data.forM FieldPatch.validate
  state.forM FieldPatch.validate
  objects.forM FieldPatch.validateObjects
  let patch := { layout, message, data, state, objects : Patch crates }
  patch.checkConflicts
  return patch

end Patch

inductive Node (crates : Crates) where
  | raw (value : RawValue crates)
  | map (entries : List (String × Node crates))

namespace Node

mutual

def text : Node crates → String
  | raw value => value
  | map entries => writeObject crates (texts entries)

def texts : List (String × Node crates) → List (String × String)
  | [] => []
  | (key, node) :: entries => (key, text node) :: texts entries

end

end Node

/-- Takes what is still in each of the slots at the given positions. -/
def takePositions {α : Type} (slots : List (Option α)) :
    List Nat → Except (CodecError crates) (List α)
  | [] => return []
  | position :: positions => do
      let some slot := slots[position]? | throw (.invalidDelta "invalid order position")
      let some entry := slot | throw (.invalidDelta "repeated order key")
      return entry :: (← takePositions (slots.set position none) positions)

def positionOf (entries : List (String × Node crates)) (key : String) :
    Except (CodecError crates) Nat :=
  match entries.findIdx? fun entry => entry.1 = key with
  | some position => return position
  | none => throw (.invalidDelta "unknown order key")

def reorder (entries : List (String × Node crates)) (order : List String) :
    Except (CodecError crates) (List (String × Node crates)) := do
  if order.length ≠ entries.length then
    throw (.invalidDelta "order is not a complete key permutation")
  let positions ← order.mapM (positionOf entries)
  takePositions (entries.map some) positions

/-- The entries left after the removals, with the values set, then the new ones. -/
def mergeEntries (base : RawMap crates) (set : Option (RawMap crates)) (remove : List String) :
    List (String × Node crates) :=
  ((base.entries.filter fun entry => entry.1 ∉ remove).map fun (key, value) =>
    (key, .raw ((set.bind fun set => set.get key).getD value))) ++
  ((set.elim [] RawMap.entries).filter fun entry => (base.get entry.1).isNone).map
    fun (key, value) => (key, .raw value)

def applyMap (base : RawMap crates) (set : Option (RawMap crates)) (remove : List String)
    (order : Option (List String)) : Except (CodecError crates) (Node crates) := do
  set.forM fun set => validateOperations set remove order
  if remove.any fun key => (base.get key).isNone then
    throw (.invalidDelta "removal target is missing")
  match order with
  | none => return .map (mergeEntries base set remove)
  | some order => return .map (← reorder (mergeEntries base set remove) order)

def applyFields (base : RawMap crates) :
    Option (FieldPatch crates) → Except (CodecError crates) (Node crates)
  | some patch => applyMap base (some patch.set) patch.remove patch.order
  | none => applyMap base none [] none

def replaceChild (parent : Node crates) (key : String) (child : Node crates) :
    Except (CodecError crates) (Node crates) :=
  match parent with
  | .raw _ => throw (.invalidDelta "parent must be a map")
  | .map entries =>
    match entries.findIdx? fun entry => entry.1 = key with
    | none => throw (.invalidDelta "child target is missing")
    | some position => return .map (entries.modify position fun entry => (entry.1, child))

/-- Without operations below it, a child stays as the parent's own operations leave it. -/
def replaceIf (touched : Bool) (parent : Node crates) (key : String) (child : Node crates) :
    Except (CodecError crates) (Node crates) :=
  if touched then replaceChild parent key child else return parent

/-- A message patch may not change the layout or the type. -/
def changesType (message : FieldPatch crates) : Bool :=
  "type" ∈ message.remove ||
    (message.set.get "type").any fun raw => crates.string raw ≠ some "StateUpdate"

def assembleState (shape : Shape crates) (patch : Patch crates) :
    Except (CodecError crates) (Node crates) := do
  let state ← applyFields (← shape.stateMap.borrow) patch.state
  match patch.objects with
  | none => return state
  | some objects =>
    let some index := shape.objects
      | throw (.invalidDelta "objects target is missing or not a map")
    let child ← applyMap (← index.borrow) (some objects.set) objects.remove objects.order
    replaceChild state "objects" child

def assemble (shape : Shape crates) (patch : Patch crates) :
    Except (CodecError crates) (Node crates) := do
  if shape.layout ≠ patch.layout then throw (.invalidDelta "layout mismatch")
  patch.checkConflicts
  let state ← assembleState shape patch
  match patch.layout with
  | .state =>
    if patch.message.isSome || patch.data.isSome then
      throw (.invalidDelta "bare state has message/data operations")
    return state
  | .message =>
    let some dataIndex := shape.data | throw (.invalidDelta "missing data target")
    let data ← applyFields (← dataIndex.borrow) patch.data
    let data ← replaceIf (patch.state.isSome || patch.objects.isSome) data "state" state
    let message ← applyFields (← shape.root.borrow) patch.message
    let message ← replaceIf (patch.data.isSome || patch.state.isSome || patch.objects.isSome)
      message "data" data
    if patch.message.any changesType then throw (.invalidDelta "message type change")
    return message

def diffFieldsBy (before after : RawMap crates) (child : Option String)
    (equivalent : String → RawValue crates → RawValue crates → Bool) :
    Except (CodecError crates) (FieldPatch crates) := do
  let set ← RawMap.new (after.entries.filter fun (key, value) =>
    child ≠ some key && !((before.get key).any fun old => equivalent key old value))
  let remove := (before.entries.filter fun (key, _) =>
    child ≠ some key && (after.get key).isNone).map Prod.fst
  let default := (before.entries.filter fun (key, _) => (after.get key).isSome).map Prod.fst ++
    (after.entries.filter fun (key, _) => (before.get key).isNone).map Prod.fst
  let order := if default ≠ after.keys then some after.keys else none
  return { set, remove, order }

def diffFields (before after : RawMap crates) (child : Option String) :
    Except (CodecError crates) (FieldPatch crates) :=
  diffFieldsBy before after child fun _ old new => old = new

/-- Objects are compared by their digests. -/
def diffObjects (before after : MapIndex crates (StateHash crates)) :
    Except (CodecError crates) (FieldPatch crates) := do
  diffFieldsBy (← before.borrow) (← after.borrow) none fun key _ _ =>
    match before.entry key, after.entry key with
    | some old, some new => old.digest = new.digest
    | _, _ => false

def commonObjects (before after : Shape crates) :
    Option (MapIndex crates (StateHash crates) × MapIndex crates (StateHash crates)) :=
  before.objects.bind fun old => after.objects.map fun new => (old, new)

def diffCommon (before after : Shape crates) :
    Except (CodecError crates) (Option (FieldPatch crates)) :=
  match commonObjects before after with
  | none => return none
  | some (old, new) => return some (← diffObjects old new)

/-- The operations on a message around its state, and on its data. -/
def diffMessage (before after : Shape crates) :
    Except (CodecError crates) (Option (FieldPatch crates) × Option (FieldPatch crates)) :=
  match before.layout with
  | .state => return (none, none)
  | .message => do
      let message ← diffFields (← before.root.borrow) (← after.root.borrow) (some "data")
      let some beforeData := before.data | throw (.invalidDelta "missing data index")
      let some afterData := after.data | throw (.invalidDelta "missing data index")
      let data ← diffFields (← beforeData.borrow) (← afterData.borrow) (some "state")
      return (some message, some data)

def diff (before after : Shape crates) : Except (CodecError crates) (Patch crates) := do
  let state ← diffFields (← before.stateMap.borrow) (← after.stateMap.borrow)
    ((commonObjects before after).map fun _ => "objects")
  let objects ← diffCommon before after
  let (message, data) ← diffMessage before after
  return {
    layout := before.layout
    message := message.filter fun fields => !fields.isEmpty
    data := data.filter fun fields => !fields.isEmpty
    state := (some state).filter fun fields => !fields.isEmpty
    objects := objects.filter fun fields => !fields.isEmpty }

variable {crates : Crates}

/-- The document's index; a document that cannot be indexed is only ever sent in full. -/
def WireState.shape (state : WireState crates) : Option (Shape crates) :=
  match Shape.index state.json with
  | .ok shape => some shape
  | .error _ => none

def isGameStarted (state : WireState crates) : Bool :=
  match RawMap.read state.json with
  | .ok root => (root.get "type").any fun raw => crates.string raw = some "GameStarted"
  | .error _ => false

def writeEnvelope (crates : Crates) (tag data : String) : String :=
  writeObject crates [("type", crates.quote tag), ("data", data)]

def Delta.write (delta : Delta crates) : String :=
  writeObject crates [("base_revision", toString delta.baseRevision),
    ("revision", toString delta.revision),
    ("base_hash", crates.quote (crates.hex delta.baseHash)),
    ("result_hash", crates.quote (crates.hex delta.resultHash)),
    ("patch", delta.patch)]

def writeFull (state : WireState crates) : String :=
  writeObject crates <|
    [("state", state.json.1)] ++
      (state.revision.map fun revision => ("revision", toString revision)).toList

def serializedSize (text : String) : Nat := text.utf8ByteSize

def preferDelta (deltaBytes fullBytes : Nat) : Bool := deltaBytes < fullBytes

/-- The operations between two indexed documents, when they give the state back exactly and
take less room than the state itself. -/
def encodeDelta (base state : WireState crates) (baseRevision revision : Nat)
    (before after : Shape crates) : Except (CodecError crates) (Frame crates) := do
  let patch ← diff before after
  let assembled ← assemble before patch
  if assembled.text ≠ state.json then return .full state
  let delta : Delta crates := {
    baseRevision
    revision
    baseHash := stateHash base
    resultHash := stateHash state
    patch := patch.write }
  let deltaSize := serializedSize (writeEnvelope crates "Delta" delta.write)
  let fullSize := serializedSize (writeEnvelope crates "Full" (writeFull state))
  if !preferDelta deltaSize fullSize then return .full state
  return .delta delta

def encode (baseline : Option (WireState crates)) (state : WireState crates) :
    Except (CodecError crates) (Frame crates) :=
  match baseline with
  | none => return .full state
  | some base =>
    if isGameStarted state then return .full state
    else
      match base.revision, state.revision, base.shape, state.shape with
      | some baseRevision, some revision, some before, some after =>
        if before.layout ≠ after.layout then return .full state
        else encodeDelta base state baseRevision revision before after
      | _, _, _, _ => return .full state

/-- Checks the base, validates the operations, and lets only a verified result out. -/
def decodeDelta (base : WireState crates) (delta : Delta crates) :
    Except (CodecError crates) (WireState crates) := do
  if base.revision ≠ some delta.baseRevision then
    throw (.baseRevisionMismatch delta.baseRevision base.revision)
  if stateHash base ≠ delta.baseHash then
    throw (.baseHashMismatch delta.baseHash (stateHash base))
  let some shape := base.shape | throw (.invalidDelta "baseline is not structurally eligible")
  let patch ← Patch.parse delta.patch
  let assembled ← assemble shape patch
  let result ← WireState.fromJson assembled.text.toUTF8
  let result := result.withRevision delta.revision
  if stateHash result ≠ delta.resultHash then
    throw (.resultHashMismatch delta.resultHash (stateHash result))
  return result

def decode (baseline : Option (WireState crates)) :
    Frame crates → Except (CodecError crates) (WireState crates)
  | .full state => return state
  | .delta delta =>
    match baseline with
    | none => throw .missingBaseline
    | some base => decodeDelta base delta

end Phase.Codec
