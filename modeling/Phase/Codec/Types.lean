import Mathlib.Data.List.Nodup

/-! Published states, the maps read out of their documents, and the operations and frames
that carry them. -/
namespace Phase.Codec

/-- What the codec calls in `serde_json` and `sha2`. A value's text has no whitespace around
it; the readers give the parts of a text back as the texts they were. -/
structure Crates where
  /-- The text is one JSON value with nothing around it. -/
  IsValue : String → Prop
  /-- The JSON value in a text, without the whitespace around it. -/
  fromStr : String → Option { text : String // IsValue text }
  /-- The entries of a JSON object, keys decoded, in the order written. -/
  object : String → Option (List (String × { text : String // IsValue text }))
  array : String → Option (List { text : String // IsValue text })
  string : String → Option String
  quote : String → String
  Digest : Type
  decEq : DecidableEq Digest
  sha256 : String → Digest
  hex : Digest → String

variable {crates : Crates}

instance : DecidableEq crates.Digest := crates.decEq

abbrev RawValue (crates : Crates) := { text : String // crates.IsValue text }

abbrev StateHash (crates : Crates) := crates.Digest

/-- Serialized maps and lists: no whitespace, the parts verbatim. -/
def writeObject (crates : Crates) (entries : List (String × String)) : String :=
  "\x7b" ++ ",".intercalate (entries.map fun (key, value) => crates.quote key ++ ":" ++ value) ++
    "\x7d"

def writeArray (items : List String) : String := "[" ++ ",".intercalate items ++ "]"

/-- What the codec relies on: a value reads as itself, what is written is a value, and it is
read back as what was written. -/
structure Crates.Lawful (crates : Crates) : Prop where
  reads_value : ∀ value : RawValue crates, crates.fromStr value = some value
  quote_isValue : ∀ text, crates.IsValue (crates.quote text)
  reads_string : ∀ text, crates.string (crates.quote text) = some text
  array_isValue : ∀ items : List (RawValue crates), crates.IsValue (writeArray (items.map (·.1)))
  reads_array : ∀ items : List (RawValue crates),
    crates.array (writeArray (items.map (·.1))) = some items
  object_isValue : ∀ entries : List (String × RawValue crates),
    crates.IsValue (writeObject crates (entries.map fun (key, value) => (key, value.1)))
  reads_object : ∀ entries : List (String × RawValue crates),
    crates.object (writeObject crates (entries.map fun (key, value) => (key, value.1))) =
      some entries

inductive CodecError (crates : Crates) where
  | json
  | malformed (reason : String)
  | missingBaseline
  | baseRevisionMismatch (expected : Nat) (actual : Option Nat)
  | baseHashMismatch (expected actual : StateHash crates)
  | resultHashMismatch (expected actual : StateHash crates)
  | invalidDelta (reason : String)

/-- An immutable JSON value and an optional publication revision. -/
structure WireState (crates : Crates) where
  json : RawValue crates
  revision : Option Nat

def stateHash (state : WireState crates) : StateHash crates := crates.sha256 state.json

/-- A missing part is an error of the reader's. -/
def orJson {α : Type} : Option α → Except (CodecError crates) α
  | some a => .ok a
  | none => .error .json

namespace WireState

/-- One exact JSON value, without outer whitespace. -/
def fromJson (bytes : ByteArray) : Except (CodecError crates) (WireState crates) := do
  let text ←
    match String.fromUTF8? bytes with
    | some text => pure text
    | none => throw (.malformed "state is not valid UTF-8")
  return { json := ← orJson (crates.fromStr text), revision := none }

def withRevision (state : WireState crates) (revision : Nat) : WireState crates :=
  { state with revision := some revision }

end WireState

/-- The entries of an object in the order written. The source also sorts their positions by
key, to look keys up. -/
structure RawMap (crates : Crates) where
  entries : List (String × RawValue crates) := []

namespace RawMap

def keys (map : RawMap crates) : List String := map.entries.map Prod.fst

def new (entries : List (String × RawValue crates)) : Except (CodecError crates) (RawMap crates) :=
  if (entries.map Prod.fst).Nodup then .ok { entries }
  else .error (.invalidDelta "duplicate decoded map key")

def get (map : RawMap crates) (key : String) : Option (RawValue crates) :=
  (map.entries.find? fun entry => entry.1 = key).map Prod.snd

def isEmpty (map : RawMap crates) : Bool := map.entries.isEmpty

/-- The reader's own errors hide the reason. -/
def read (raw : RawValue crates) : Except (CodecError crates) (RawMap crates) := do
  let entries ← orJson (crates.object raw)
  match RawMap.new entries with
  | .ok map => return map
  | .error _ => throw .json

def write (map : RawMap crates) : String :=
  writeObject crates (map.entries.map fun (key, value) => (key, value.1))

end RawMap

inductive PatchLayout where
  | state
  | message
  deriving DecidableEq

/-- The source keeps the value's span in the document; here it is the value found there. -/
structure IndexedEntry (crates : Crates) (D : Type) where
  key : String
  value : RawValue crates
  digest : D

structure MapIndex (crates : Crates) (D : Type) where
  entries : List (IndexedEntry crates D)

namespace MapIndex

variable {D : Type}

def indexWith (raw : RawValue crates) (digest : RawValue crates → D) :
    Except (CodecError crates) (MapIndex crates D) := do
  let map ← RawMap.read raw
  if map.write ≠ raw then throw (.invalidDelta "non-lossless structural map")
  return { entries := map.entries.map fun (key, value) => { key, value, digest := digest value } }

def index (raw : RawValue crates) : Except (CodecError crates) (MapIndex crates Unit) :=
  indexWith raw fun _ => ()

def raw (entry : IndexedEntry crates D) : Except (CodecError crates) (RawValue crates) :=
  orJson (crates.fromStr entry.value)

def entry (index : MapIndex crates D) (key : String) : Option (IndexedEntry crates D) :=
  index.entries.find? fun entry => entry.key = key

def get (index : MapIndex crates D) (key : String) :
    Except (CodecError crates) (Option (RawValue crates)) :=
  match index.entry key with
  | none => return none
  | some entry => return some (← raw entry)

def borrow (index : MapIndex crates D) : Except (CodecError crates) (RawMap crates) := do
  let entries ← index.entries.mapM fun entry => do return (entry.key, ← raw entry)
  return { entries }

end MapIndex

/-- The maps of a document that a patch can address. -/
structure Shape (crates : Crates) where
  layout : PatchLayout
  root : MapIndex crates Unit
  data : Option (MapIndex crates Unit)
  state : Option (MapIndex crates Unit)
  objects : Option (MapIndex crates (StateHash crates))

def startsObject (value : RawValue crates) : Bool := value.1.toList.head? = some '\x7b'

namespace Shape

def indexObjects (raw : RawValue crates) :
    Except (CodecError crates) (MapIndex crates (StateHash crates)) := do
  let objects ← MapIndex.indexWith raw fun body => crates.sha256 body
  objects.entries.forM fun entry => do
    if !startsObject (← MapIndex.raw entry) then
      throw (.invalidDelta "object body must be an object")
  return objects

/-- A message is addressed through its `data` and their `state`. -/
def indexMessage (root : MapIndex crates Unit) (tag : RawValue crates) :
    Except (CodecError crates) (MapIndex crates Unit × MapIndex crates Unit) := do
  let tag ← orJson (crates.string tag)
  if tag ≠ "StateUpdate" then throw (.invalidDelta "message kind is FULL-only")
  let some dataRaw ← root.get "data" | throw (.invalidDelta "missing message data")
  let data ← MapIndex.index dataRaw
  let some stateRaw ← data.get "state" | throw (.invalidDelta "missing message state")
  let state ← MapIndex.index stateRaw
  return (data, state)

/-- The object map of a state, when it is a map at all. -/
def findObjects (state : MapIndex crates Unit) :
    Except (CodecError crates) (Option (MapIndex crates (StateHash crates))) := do
  match ← state.get "objects" with
  | some raw => if startsObject raw then return some (← indexObjects raw) else return none
  | none => return none

def index (json : RawValue crates) : Except (CodecError crates) (Shape crates) := do
  let rootRaw ← orJson (crates.fromStr json)
  let root ← MapIndex.index rootRaw
  match ← root.get "type" with
  | none =>
    let objects ← findObjects root
    return { layout := .state, root, data := none, state := none, objects }
  | some tag =>
    let (data, state) ← indexMessage root tag
    let objects ← findObjects state
    return { layout := .message, root, data := some data, state := some state, objects }

/-- The map of the state itself. -/
def stateMap (shape : Shape crates) : MapIndex crates Unit := shape.state.getD shape.root

end Shape

/-- What happens to the entries of one map: `set` (for objects, `upsert`), `remove`, and the
order of the result when it is not the default one. -/
structure FieldPatch (crates : Crates) where
  set : RawMap crates := {}
  remove : List String := []
  order : Option (List String) := none

structure Patch (crates : Crates) where
  layout : PatchLayout
  message : Option (FieldPatch crates) := none
  data : Option (FieldPatch crates) := none
  state : Option (FieldPatch crates) := none
  objects : Option (FieldPatch crates) := none

def FieldPatch.isEmpty (patch : FieldPatch crates) : Bool :=
  patch.set.isEmpty && patch.remove.isEmpty && patch.order.isNone

structure Delta (crates : Crates) where
  baseRevision : Nat
  revision : Nat
  baseHash : StateHash crates
  resultHash : StateHash crates
  /-- The text of the operation document. -/
  patch : String

inductive Frame (crates : Crates) where
  | full (state : WireState crates)
  | delta (delta : Delta crates)

end Phase.Codec
