import Phase.Codec.RoundTrip

/-! The codec lane of a connection: every state is encoded against the last one whose frame was
flushed, and the client decodes what arrives against what it holds. -/
namespace Phase.Codec
open Fallible

/-- A state that was delivered: of which game, and as seen by whom. -/
structure Baseline (crates : Crates) (Key Viewer : Type) where
  fullKey : Key
  viewer : Viewer
  state : WireState crates

/-- Only the start of a game and its updates go through the codec. -/
inductive StateFrame (Key Viewer : Type) where
  | projected (started : Bool) (fullKey : Option Key) (viewer : Option Viewer) (revision : Nat)
  | nonState

/-- A message, whether it answers a resync, and what it is serialized to. -/
structure Envelope (Key Viewer : Type) where
  frame : StateFrame Key Viewer
  resync : Bool
  json : Option String

inductive EncodingFailure where
  | serialization
  | transport

inductive Payload (crates : Crates) where
  | frame (frame : Frame crates)
  | json (text : String)

structure PreparedApplication (crates : Crates) (Key Viewer : Type) where
  payload : Payload crates
  candidate : Option (Baseline crates Key Viewer)

section
variable {crates : Crates} {Key Viewer : Type} [DecidableEq Key] [DecidableEq Viewer]
  (delivered : Option (Baseline crates Key Viewer))

/-- What a state may be encoded against: neither a first state nor a resync builds on anything. -/
def Baseline.serves (fullKey : Key) (viewer : Viewer) (revision : Nat) (fresh : Bool)
    (baseline : Baseline crates Key Viewer) : Bool :=
  baseline.fullKey = fullKey && baseline.viewer = viewer &&
    baseline.state.revision.all (· ≤ revision) && !fresh

def prepareRef (envelope : Envelope Key Viewer) :
    Except EncodingFailure (PreparedApplication crates Key Viewer) :=
  match envelope.frame, envelope.json with
  | .nonState, some text => return ⟨.json text, none⟩
  | .nonState, none => throw .serialization
  | .projected started (some fullKey) (some viewer) revision, some text => do
      let state ← (WireState.fromJson text.toUTF8).mapError fun _ => .transport
      let state := state.withRevision revision
      let baseline := delivered.filter
        (Baseline.serves fullKey viewer revision (started || envelope.resync))
      let frame ← (encode (baseline.map (·.state)) state).mapError fun _ => .transport
      return ⟨.frame frame, some ⟨fullKey, viewer, state⟩⟩
  | .projected .., _ => throw .transport

def commit (candidate : Option (Baseline crates Key Viewer)) : Option (Baseline crates Key Viewer) :=
  candidate.or delivered

/-- The client decodes against the state it holds, and holds what it decoded. -/
def receive (held : Option (WireState crates)) :
    Payload crates → Except (CodecError crates) (Option (WireState crates))
  | .frame frame => return some (← decode held frame)
  | .json _ => return held

/-- Both ends after any frames, each prepared, flushed and received before the next. An envelope
that is skipped changes nothing, and one that is too long is replaced by another. -/
inductive Lane : Option (Baseline crates Key Viewer) → Option (WireState crates) → Prop
  | opened : Lane none none
  | flushed {delivered held envelope prepared held'} : Lane delivered held →
      prepareRef delivered envelope = .ok prepared → receive held prepared.payload = .ok held' →
      Lane (commit delivered prepared.candidate) held'

/-- A frame of changes leads from a state of the same game, seen by the same viewer and no newer,
to the state that is delivered with it. -/
def Follows (prepared : PreparedApplication crates Key Viewer) : Prop :=
  ∀ delta, prepared.payload = .frame (.delta delta) → ∃ last next, delivered = some last ∧
    prepared.candidate = some next ∧ last.fullKey = next.fullKey ∧ last.viewer = next.viewer ∧
    ∃ revision, next.state.revision = some revision ∧
      ∀ earlier, last.state.revision = some earlier → earlier ≤ revision

variable {delivered} {envelope : Envelope Key Viewer} {prepared : PreparedApplication crates Key Viewer}

theorem prepareRef_received (lawful : crates.Lawful)
    (ok : prepareRef delivered envelope = .ok prepared) :
    receive (delivered.map (·.state)) prepared.payload =
        .ok ((commit delivered prepared.candidate).map (·.state)) ∧
      Follows delivered prepared := by
  unfold prepareRef at ok
  split at ok
  · cases ok
    exact ⟨rfl, nofun⟩
  · cases ok
  · next started fullKey viewer revision text _ _ =>
    obtain ⟨read, -, ok⟩ := bind_eq_ok.mp ok
    dsimp only at ok
    cases served : delivered.filter
        (Baseline.serves fullKey viewer revision (started || envelope.resync)) with
    | none =>
      rw [served] at ok
      cases ok
      exact ⟨rfl, nofun⟩
    | some last =>
      obtain ⟨rfl, serves⟩ := Option.filter_eq_some_iff.mp served
      obtain ⟨frame, sent, decoded⟩ :=
        encode_decodes lawful (some last.state) (read.withRevision revision)
      rw [served, Option.map_some, sent] at ok
      cases ok
      simp only [Baseline.serves, Bool.and_eq_true, decide_eq_true_eq] at serves
      obtain ⟨⟨⟨sameKey, sameViewer⟩, newer⟩, -⟩ := serves
      refine ⟨by simp [receive, decoded, commit], fun delta _ => ⟨last, _, rfl, rfl, sameKey,
        sameViewer, revision, rfl, fun earlier isEarlier => ?_⟩⟩
      simpa [isEarlier] using newer
  · cases ok

end

end Phase.Codec
