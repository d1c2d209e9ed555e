import Mathlib.Data.List.Sort
import Phase.Draft.Types

/-! The barrier flow: every seat holding a pack picks, then all packs pass. -/
namespace Phase.Draft
open List

def validateLegacyAdmission (session : DraftSession) : Except DraftError Unit :=
  if session.config.flow ≠ .legacyBarrier ∨ session.fifo.isSome ∨ session.status = .review ∨
      session.config.selectionPolicy ≠ {} ∨ session.config.clockPolicy ≠ {} then
    .error .incompatibleFlow
  else .ok ()

/-- `Vec::resize` where it can only grow. -/
def ensureLen {α : Type} (xs : List α) (len : Nat) (default : α) : List α :=
  xs ++ replicate (len - xs.length) default

/-- `Vec::resize`. -/
def resize {α : Type} (xs : List α) (len : Nat) (default : α) : List α :=
  ensureLen (xs.take len) len default

def heldPack (session : DraftSession) (seat : Nat) : DraftPack :=
  ((session.currentPack[seat]?).join).getD []

def owesPick (session : DraftSession) (seat : Nat) : Bool :=
  !(heldPack session seat).isEmpty

/-- Each id's position in the pack; a second id of the same card is refused. -/
def resolveIndices (seat : Nat) (pack : DraftPack) :
    List String → List Nat → Except DraftError (List Nat)
  | [], indices => .ok indices
  | id :: ids, indices =>
    match pack.findIdx? fun card => card.instanceId = id with
    | none => .error (.cardNotInPack id)
    | some index =>
      if index ∈ indices then .error (.duplicatePickCardId seat id)
      else resolveIndices seat pack ids (indices ++ [index])

/-- `pack.remove(index)` for each `(slot, index)` in turn. -/
def removeEach (pack : DraftPack) :
    List (Nat × Nat) → DraftPack × List (Nat × DraftCardInstance)
  | [] => (pack, [])
  | (slot, index) :: rest =>
    match pack[index]? with
    | none => removeEach pack rest
    | some card =>
      let (left, taken) := removeEach (pack.eraseIdx index) rest
      (left, (slot, card) :: taken)

/-- The cards at `indices`, in that order, and the pack without them. Removal
goes by descending index so that no removal shifts a later one. -/
def takeIndices (pack : DraftPack) (indices : List Nat) : DraftPack × List DraftCardInstance :=
  let order := (indices.zipIdx.map Prod.swap).insertionSort fun a b => b.2 ≤ a.2
  let (left, taken) := removeEach pack order
  (left, (taken.insertionSort fun a b => a.1 ≤ b.1).map (·.2))

def setPack (session : DraftSession) (seat : Nat) (pack : DraftPack) : DraftSession :=
  { session with currentPack := session.currentPack.set seat (some pack) }

def setPool (session : DraftSession) (seat : Nat) (pool : List DraftCardInstance) :
    DraftSession :=
  { session with pools := session.pools.set seat pool }

def roundComplete (session : DraftSession) : Bool :=
  (range session.seats.length).all fun i =>
    !owesPick session i || session.seatsPickedThisRound.getD i false

def openNext (held : Option DraftPack) : List DraftPack → Option DraftPack
  | [] => held
  | next :: _ => some next

/-- Every seat opens its next booster, if it has one. -/
def openPacks (session : DraftSession) : DraftSession :=
  { session with
    passDirection := PassDirection.forPack session.currentPackNumber
    pickNumber := 0
    currentPack := zipWith openNext session.currentPack session.packsBySeat
    currentPackOrigins := session.packsBySeat.zipIdx.map fun (future, seat) =>
      if future.isEmpty then none else some seat
    packsBySeat := session.packsBySeat.map tail }

/-- Each entry moves to the next seat in the passing direction. -/
def passAround {α : Type} (direction : PassDirection) (podSize : Nat) (held : List (Option α)) :
    List (Option α) :=
  (range podSize).foldl (fun passed i => passed.set (direction.nextSeat i podSize) (held[i]?).join)
    (replicate podSize none)

def passPacks (session : DraftSession) : DraftSession :=
  let podSize := session.seats.length
  { session with
    pickNumber := (session.pickNumber + 1) % 256
    currentPack := passAround session.passDirection podSize session.currentPack
    currentPackOrigins := passAround session.passDirection podSize session.currentPackOrigins }

def packsEmpty (session : DraftSession) : Bool :=
  session.currentPack.all fun held => (held.getD []).isEmpty

def clearFlags (session : DraftSession) : DraftSession :=
  { session with seatsPickedThisRound := session.seatsPickedThisRound.map fun _ => false }

def nextRound (session : DraftSession) : DraftSession :=
  { session with currentPackNumber := session.currentPackNumber + 1 }

/-- The step is over: pass on, or open the next round, or go to deck building. -/
def endStep (session : DraftSession) : DraftSession × List DraftDelta :=
  let cleared := clearFlags session
  if packsEmpty cleared then
    let next := nextRound cleared
    if next.config.packCount ≤ next.currentPackNumber then
      ({ next with status := .deckbuilding }, [.transitionedTo .deckbuilding])
    else (openPacks next, [.packExhausted next.currentPackNumber])
  else (passPacks cleared, [.packPassed])

def markPicked (session : DraftSession) (seat : Nat) : DraftSession :=
  { session with
    currentPackOrigins := resize session.currentPackOrigins session.seats.length none
    seatsPickedThisRound := session.seatsPickedThisRound.set seat true }

def finishPick (session : DraftSession) (seat : Nat) (ids : List String) :
    DraftSession × List DraftDelta :=
  let marked := markPicked session seat
  let deltas := ids.map fun id => DraftDelta.cardPicked seat id
  if roundComplete marked then
    let (next, passed) := endStep marked
    (next, deltas ++ passed)
  else (marked, deltas)

/-- The checks every pick makes before it looks at cards, with the flag vectors
reshaped to the pod. -/
def admitPick (session : DraftSession) (seat : Nat) (action : String) :
    Except DraftError DraftSession :=
  let podSize := session.seats.length
  if session.status ≠ .drafting then .error (.invalidTransition session.status action)
  else if podSize ≤ seat then .error (.seatOutOfRange seat podSize)
  else
    let session := { session with
      seatsPickedThisRound := ensureLen session.seatsPickedThisRound podSize false
      connectedSeats := ensureLen session.connectedSeats podSize true }
    if session.seatsPickedThisRound.getD seat false then
      .error (.seatAlreadyPickedThisRound seat)
    else .ok session

def applyPick (session : DraftSession) (seat : Nat) (ids : List String) :
    Except DraftError (DraftSession × List DraftDelta) := do
  validateLegacyAdmission session
  let session ← admitPick session seat "Pick"
  let pack := heldPack session seat
  if pack.isEmpty then .error (.noPendingPack seat)
  else if ids.length ≠ session.requiredPickCount seat then
    .error (.wrongPickCardCount seat (session.requiredPickCount seat) ids.length)
  else
    let indices ← resolveIndices seat pack ids []
    let (left, picked) := takeIndices pack indices
    let moved := setPool (setPack session seat left) seat (session.pools.getD seat [] ++ picked)
    pure (finishPick moved seat ids)

/-- The first card with this id leaves the pack. -/
def takeById (pack : DraftPack) (id : String) : DraftPack × List DraftCardInstance :=
  match pack.findIdx? fun card => card.instanceId = id with
  | none => (pack, [])
  | some index => (pack.eraseIdx index, pack[index]?.toList)

def takeByIds (pack : DraftPack) : List String → DraftPack × List DraftCardInstance
  | [] => (pack, [])
  | id :: ids =>
    let (left, taken) := takeById pack id
    let (rest, more) := takeByIds left ids
    (rest, taken ++ more)

def isEffectCard (id : String) (card : DraftCardInstance) : Bool :=
  card.instanceId = id && card.draftEffect = some .additionalPick

def applyPickWithDraftEffect (session : DraftSession) (seat : Nat) (effectId : String)
    (ids : List String) : Except DraftError (DraftSession × List DraftDelta) := do
  validateLegacyAdmission session
  match ids with
  | [first, second] =>
    let session ← admitPick session seat "PickWithDraftEffect"
    if first = second then .error (.invalidDraftEffectSelection 2 1)
    else
      let pool := session.pools.getD seat []
      match pool.findIdx? (isEffectCard effectId), (session.currentPack[seat]?).join with
      | none, _ => .error (.draftEffectCardNotInPool effectId)
      | some _, none => .error (.noPendingPack seat)
      | some effectIndex, some pack =>
        match ids.find? fun id => !(pack.any fun card => card.instanceId = id) with
        | some missing => .error (.cardNotInPack missing)
        | none =>
          let (left, picked) := takeByIds pack ids
          let returned := pool[effectIndex]?.toList
          let moved := setPool (setPack session seat (left ++ returned)) seat
            (pool.eraseIdx effectIndex ++ picked)
          pure (finishPick moved seat ids)
  | _ => .error (.invalidDraftEffectSelection 2 ids.length)

/-- Each seat's first booster is opened; the rest wait. -/
def dealPacks (session : DraftSession) (packs : List (List DraftPack)) : DraftSession :=
  { session with
    packSizes := (packs.headD []).map fun pack => min pack.length 255
    currentPack := packs.map head?
    currentPackOrigins := packs.zipIdx.map fun (_, seat) => some seat
    packsBySeat := packs.map tail
    status := .drafting
    passDirection := PassDirection.forPack 0
    currentPackNumber := 0
    pickNumber := 0
    seatsPickedThisRound := replicate session.seats.length false }

/-- `apply_start_draft` for a kind that picks and passes; `generated` is what the
pack source deals. -/
def startPickAndPass (session : DraftSession)
    (generated : Except DraftError (List (List DraftPack))) :
    Except DraftError (DraftSession × List DraftDelta) := do
  validateLegacyAdmission session
  if session.status ≠ .lobby then throw (.invalidTransition session.status "StartDraft")
  validateLayout session.config session.seats.length
  session.kind.admitPodSize session.config.source session.config.tournamentFormat
    session.seats.length .configuration
  if session.kind.procedure.distribution ≠ session.config.kind.procedure.distribution then
    throw (.invalidSealedConfiguration "session kind does not match configuration")
  let packs ← generated
  pure (dealPacks session packs, [.draftStarted])

end Phase.Draft
