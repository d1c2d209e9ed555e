import Phase.Directory.Url
import Phase.Draft.LegacyApply
import Phase.Draft.View

/-! `upgrade_legacy_snapshot`: a stored session of the legacy flow is taken over into the FIFO
flow, in the middle of whatever its seats were doing. The kinds here pick and pass. -/
namespace Phase.Draft.Legacy
open List

structure LegacySeatProgress where
  total : Nat
  round : Nat
  deriving DecidableEq

/-- Facts kept beside the stored session. What is absent is derived where it can be. -/
structure LegacyUpgradeContext where
  sessionId : String
  nowMs : Nat
  clockPolicy : DraftClockPolicy
  paused : Option DraftPausedState
  pendingClock : Option DraftClockState
  provenance : Option (List DraftPackProvenance)
  progress : Option (List LegacySeatProgress)
  deriving DecidableEq

/-- `validate_persisted_snapshot` for a kind that picks and passes. -/
def validatePersistedSnapshot (session : DraftSession) : Except DraftError Unit :=
  match session.config.flow with
  | .fifoAsync => validateFifoSnapshot session
  | .legacyBarrier => do
      validateLegacyAdmission session
      if session.kind ≠ session.config.kind then
        throw (.invalidSealedSnapshot "session kind does not match configuration")
      let podSize := session.seats.length % 256
      validateLayout session.config podSize
      let procedure := session.kind.procedure
      let format := session.config.tournamentFormat
      if !(procedure.allowsPodSize format podSize ||
          (session.config.source.isCube && procedure.allowsLocalCubePodSize format podSize)) then
        throw (.invalidSealedSnapshot "pod size does not satisfy the draft procedure")

/-- Bitmaps and origins of an old save may be missing, but not half there. -/
def wrongDimensions (source : DraftSession) : Bool :=
  let count := source.seats.length
  let optional := fun length : Nat => length ≠ 0 && length ≠ count
  [source.pools.length, source.currentPack.length, source.packsBySeat.length].any (· ≠ count) ||
    optional source.currentPackOrigins.length || optional source.connectedSeats.length ||
    optional source.seatsPickedThisRound.length

abbrev Inventory := AList fun _ : String => DraftCardInstance

/-- Every card, wherever it is: unopened, in front of a seat, or picked. -/
def physicalCards (source : DraftSession) : List DraftCardInstance :=
  source.packsBySeat.flatten.flatten ++ (source.currentPack.map fun held => held.getD []).flatten ++
    source.pools.flatten

def takeInventory : List DraftCardInstance → Inventory → Except DraftError Inventory
  | [], inventory => .ok inventory
  | card :: cards, inventory =>
    if !validDraftId card.instanceId || (inventory.lookup card.instanceId).isSome then
      .error (snapshotError "legacy duplicate/invalid physical id")
    else takeInventory cards (inventory.insert card.instanceId card)

/-- `parse::<u8>`. -/
def parseU8 (digits : List Char) : Option Nat :=
  (Directory.parseU16 digits).filter (· < 256)

/-- The last part of what is left of an id, and what stands before it. -/
def nextPart : Option (List Char) → Option (List Char) × Option (List Char)
  | none => (none, none)
  | some left =>
    match Directory.rsplitOnce '-' left with
    | some (before, part) => (some part, some before)
    | none => (some left, none)

def partNumber (part : Option (List Char)) : Except DraftError Nat :=
  match part.bind parseU8 with
  | some number => .ok number
  | none => .error (snapshotError "custom legacy ids require provenance")

structure IdCoordinates where
  round : Nat
  seat : Nat
  ordinal : Nat
  id : String
  deriving DecidableEq

def DraftSource.setCodeForSeatAndPack (source : DraftSource) (seat packNumber : Nat) : String :=
  match source with
  | .set layout => (layout.setCodeForSeatAndPack seat packNumber).getD ""
  | .cube id _ => id

/-- What stands before the numbers in the ids of one booster. -/
def expectedStem (source : DraftSession) (seat round : Nat) : String :=
  match source.config.source with
  | .cube .. => "cube"
  | .set _ => DraftSource.setCodeForSeatAndPack source.config.source seat round

/-- An id of the historical shape: stem, seat, round and card, with hyphens between. -/
def readCoordinates (source : DraftSession) (id : String) (known : List IdCoordinates) :
    Except DraftError IdCoordinates := do
  let (part, left) := nextPart (some id.toList)
  let ordinal ← partNumber part
  let (part, left) := nextPart left
  let round ← partNumber part
  let (part, left) := nextPart left
  let seat ← partNumber part
  match left with
  | none => throw (snapshotError "legacy physical prefix missing")
  | some stem =>
    if source.config.podSize ≤ seat ∨ source.config.packCount ≤ round ∨
        !eqIgnoreAsciiCase (String.ofList stem) (expectedStem source seat round) ∨
        known.any (fun other =>
          other.round = round ∧ other.seat = seat ∧ other.ordinal = ordinal) then
      throw (snapshotError "legacy physical coordinates contradict source")
    pure { round, seat, ordinal, id }

def readAllCoordinates (source : DraftSession) :
    List String → List IdCoordinates → Except DraftError (List IdCoordinates)
  | [], known => .ok known
  | id :: ids, known => do
      let read ← readCoordinates source id known
      readAllCoordinates source ids (known ++ [read])

/-- The booster at one place, whose cards must be numbered from zero without a gap. -/
def recoverPack (podSize : Nat) (known : List IdCoordinates) (round seat : Nat) :
    Except DraftError DraftPackProvenance := do
  let cards := (known.filter fun card => card.round = round ∧ card.seat = seat).insertionSort
    fun a b => a.ordinal ≤ b.ordinal
  let size := cards.length
  if size = 0 ∨ 255 < size then throw (snapshotError "legacy pack size invalid")
  if cards.map (·.ordinal) ≠ range size then
    throw (snapshotError "legacy original ordinals are incomplete")
  pure {
    packId := coordinate podSize round seat
    openingSeat := seat
    round
    originalSize := size
    originalCardIds := cards.map (·.id) }

def recoverLegacyProvenance (source : DraftSession) (inventory : Inventory) :
    Except DraftError (List DraftPackProvenance) := do
  let known ← readAllCoordinates source (inventory.keys.insertionSort (· ≤ ·)) []
  let places := (range source.config.packCount).flatMap fun round =>
    (range source.config.podSize).map fun seat => (round, seat)
  if places.any fun (round, seat) =>
      known.all fun card => card.round ≠ round ∨ card.seat ≠ seat then
    throw (snapshotError "legacy original pack inventory is incomplete")
  places.mapM fun (round, seat) => recoverPack source.config.podSize known round seat

/-- The evidence, or what the ids say. -/
def legacyProvenance (source : DraftSession) (context : LegacyUpgradeContext)
    (inventory : Inventory) : Except DraftError (List DraftPackProvenance) :=
  match context.provenance with
  | some packs => .ok packs
  | none => recoverLegacyProvenance source inventory

def recordCards (inventory : Inventory) (packId : DraftPackId) :
    List String → FifoDraftState → Except DraftError FifoDraftState
  | [], fifo => .ok fifo
  | id :: ids, fifo =>
    match inventory.lookup id with
    | none => .error (snapshotError "legacy evidence contains absent card")
    | some card =>
      if (fifo.cards.lookup id).isSome then
        .error (snapshotError "legacy evidence duplicates card")
      else recordCards inventory packId ids
        { fifo with cards := fifo.cards.insert id { packId, card } }

def recordProvenance (inventory : Inventory) :
    List DraftPackProvenance → FifoDraftState → Except DraftError FifoDraftState
  | [], fifo => .ok fifo
  | pack :: packs, fifo => do
      let fifo ← recordCards inventory pack.packId pack.originalCardIds fifo
      if (fifo.packs.lookup pack.packId).isSome then
        throw (snapshotError "legacy evidence duplicates pack")
      recordProvenance inventory packs { fifo with packs := fifo.packs.insert pack.packId pack }

/-- The sizes of the boosters seat 0 opened. -/
def originalSizes (source : DraftSession) (fifo : FifoDraftState) : Except DraftError (List Nat) :=
  (range source.config.packCount).mapM fun round =>
    match fifo.packs.lookup (coordinate source.config.podSize round 0) with
    | some pack => .ok pack.originalSize
    | none => .error (snapshotError "legacy provenance missing coordinate")

def isChaos (source : DraftSession) : Bool :=
  match source.config.source with
  | .set (.chaos ..) => true
  | .set (.uniformByRound _) | .cube .. => false

/-- Whether the draft is running, or paused while it ran. -/
def isActive (source : DraftSession) (paused : Option DraftPausedState) : Except DraftError Bool :=
  match source.status with
  | .drafting => .ok true
  | .paused =>
    if paused.map (·.phase) ≠ some .drafting then
      .error (snapshotError "legacy paused phase is unknown")
    else .ok true
  | .lobby | .review => .error (snapshotError "invalid legacy upgrade status")
  | .deckbuilding | .pairing | .matchInProgress | .roundComplete | .complete | .abandoned =>
    .ok false

def ownsLivePacks (source : DraftSession) : Bool :=
  source.currentPack.any (fun held => !(held.getD []).isEmpty) ||
    source.packsBySeat.any fun packs => !packs.isEmpty

/-- One when the seat has made its pick of the step. -/
def pickedFlag (source : DraftSession) (seat : Nat) : Nat :=
  if source.seatsPickedThisRound.getD seat false then 1 else 0

def deriveProgress (source : DraftSession) (inventory : Inventory) (active : Bool) :
    Except DraftError (List LegacySeatProgress) :=
  if isChaos source || inventory.entries.any fun entry => entry.2.draftEffect.isSome then
    .error (snapshotError "legacy sparse/effect progress requires retained evidence")
  else
    let steps := fun round =>
      source.kind.procedure.pickStepsPerPack (source.cardsInPack round)
    let completedRounds := min source.currentPackNumber source.config.packCount
    let prior := ((range completedRounds).map steps).sum
    .ok ((range source.config.podSize).map fun seat =>
      let step := if active then source.pickNumber + pickedFlag source seat else 0
      { total := prior + step
        round := if active then step else steps (source.config.packCount - 1) })

def legacyProgress (source : DraftSession) (context : LegacyUpgradeContext)
    (inventory : Inventory) (active : Bool) : Except DraftError (List LegacySeatProgress) :=
  match context.progress with
  | some progress =>
    if progress.length = source.seats.length then .ok progress
    else .error (snapshotError "legacy progress dimensions")
  | none => deriveProgress source inventory active

/-- How many cards a seat has picked when it has skipped nothing. -/
def expectedPool (source : DraftSession) (seat : Nat) : Nat :=
  ((range source.currentPackNumber).map source.cardsInPack).sum +
    (source.pickNumber + pickedFlag source seat) * source.kind.procedure.cardsPerPick

/-- `checked` when the progress was derived and the draft is live. -/
def recordProgress (source : DraftSession) (inventory : Inventory) (checked : Bool) :
    Nat → List LegacySeatProgress → List FifoSeatState → Except DraftError (List FifoSeatState)
  | seat, evidence :: progress, state :: states => do
      refuseIf (evidence.total < evidence.round || inventory.entries.length < evidence.total)
        "invalid legacy progress evidence"
      refuseIf (checked && (source.pools.getD seat []).length ≠ expectedPool source seat)
        "legacy skipped/singleton progress needs evidence"
      let states ← recordProgress source inventory checked (seat + 1) progress states
      pure ({ state with
        completedSteps := evidence.total
        roundCompletedSteps := evidence.round
        generation := evidence.total } :: states)
  | _, _, states => .ok states

def liveOrigin (source : DraftSession) (fifo : FifoDraftState) (seat : Nat) (pack : DraftPack) :
    Except DraftError DraftPackId :=
  match (source.currentPackOrigins[seat]?).join with
  | some origin =>
    if origin < source.config.podSize then
      .ok (coordinate source.config.podSize source.currentPackNumber origin)
    else .error (snapshotError "legacy origin out of bounds")
  | none =>
    let native := pack.filter fun card => card.draftEffect.isNone
    match (native.filterMap fun card =>
        (fifo.cards.lookup card.instanceId).map (·.packId)).dedup with
    | [packId] => .ok packId
    | _ => .error (snapshotError "legacy live pack origin is ambiguous")

/-- A card from another booster must be a draft-effect card that was put back here. -/
def markReturned (packId : DraftPackId) :
    DraftPack → FifoDraftState → Except DraftError FifoDraftState
  | [], fifo => .ok fifo
  | card :: cards, fifo =>
    if (fifo.cards.lookup card.instanceId).map (·.packId) = some packId then
      markReturned packId cards fifo
    else if card.draftEffect ≠ some .additionalPick then
      .error (snapshotError "legacy current origin contradicts cards")
    else markReturned packId cards
      { fifo with returnedEffects := fifo.returnedEffects.insert card.instanceId packId }

/-- The packs still to be picked from at their seats, and those to be handed on, each with the
seat that will have it. -/
structure LivePacks where
  pending : List (Nat × QueuedDraftPack)
  passed : List (Nat × QueuedDraftPack)
  deriving DecidableEq

def collectLive (source : DraftSession) :
    List Nat → FifoDraftState → Except DraftError (FifoDraftState × LivePacks)
  | [], fifo => .ok (fifo, ⟨[], []⟩)
  | seat :: seats, fifo =>
    let pack := heldPack source seat
    if pack = [] then collectLive source seats fifo
    else do
      let packId ← liveOrigin source fifo seat pack
      match fifo.packs.lookup packId with
      | none => throw (snapshotError "unknown legacy current origin")
      | some original =>
        let fifo ← markReturned packId pack fifo
        let queued : QueuedDraftPack :=
          { packId, openingSeat := original.openingSeat, round := original.round,
            originalSize := original.originalSize, pack }
        let (fifo, live) ← collectLive source seats fifo
        if source.seatsPickedThisRound.getD seat false then
          let next := source.passDirection.nextSeat seat source.config.podSize
          pure (fifo, { live with passed := (next, queued) :: live.passed })
        else pure (fifo, { live with pending := (seat, queued) :: live.pending })

def enqueue (states : List FifoSeatState) (entry : Nat × QueuedDraftPack) : List FifoSeatState :=
  states.modify entry.1 fun state => { state with queue := state.queue ++ [entry.2] }

def retainedClock (status : DraftStatus) :
    Option DraftClockState → Except DraftError DraftClockState
  | none => .error (snapshotError "legacy remaining clock is unknown")
  | some state =>
    match status, state with
    | .drafting, .running _ | .paused, .frozen _ => .ok state
    | _, _ => .error (snapshotError "legacy clock evidence/status mismatch")

def setClock (clockState : DraftClockState) (seat : FifoSeatState) : FifoSeatState :=
  { seat with prompt := seat.prompt.map fun prompt =>
      { prompt with clock := prompt.clock.map fun clock => { clock with state := clockState } } }

/-- The prompts of the seats that still have to pick go on with the clock they had. -/
def restoreClocks (source : DraftSession) (pendingClock : Option DraftClockState)
    (policy : PickClockPolicy) (seats : List Nat) (states : List FifoSeatState) :
    Except DraftError (List FifoSeatState) :=
  if seats = [] then .ok states
  else if policy ≠ .off then do
    let state ← retainedClock source.status pendingClock
    pure (seats.foldl (fun states seat => states.modify seat (setClock state)) states)
  else if pendingClock.isSome then
    .error (snapshotError "legacy Off clock contradicts timer evidence")
  else .ok states

def freezeClock (nowMs : Nat) (seat : FifoSeatState) : FifoSeatState :=
  { seat with prompt := seat.prompt.map fun prompt =>
      { prompt with clock := prompt.clock.map fun clock =>
          match clock.state with
          | .running deadlineMs => { clock with state := .frozen (deadlineMs - nowMs) }
          | .frozen _ => clock } }

/-- The live packs are queued: a seat that has picked has, in effect, handed its pack on. -/
def upgradeActive (source : DraftSession) (context : LegacyUpgradeContext)
    (carried : DraftSession) (fifo : FifoDraftState) : Except DraftError DraftSession := do
  if source.config.packCount ≤ source.currentPackNumber then
    throw (snapshotError "legacy live round out of bounds")
  let (fifo, live) ← collectLive source (range source.config.podSize) fifo
  let queued := (live.pending ++ live.passed).foldl enqueue fifo.seats
  let states ← reconcileSeats carried.config.clockPolicy.pick fifo.sessionId context.nowMs 0 queued
  let states ← restoreClocks source context.pendingClock carried.config.clockPolicy.pick
    (live.pending.map (·.1)) states
  if source.status = .paused then
    pure { carried with
      status := .paused
      fifo := some { fifo with
        seats := states.map (freezeClock context.nowMs), paused := context.paused } }
  else
    let drafting := { carried with status := .drafting, fifo := some { fifo with seats := states } }
    if states.all fun state => state.queue.isEmpty then
      let (finished, _) ← finishFifoRound drafting context.nowMs
      pure finished
    else pure drafting

/-- What a legacy session becomes before its live packs are queued. -/
def carryOver (source fresh : DraftSession) (packSizes : List Nat) : DraftSession :=
  { fresh with
    packSizes
    pools := source.pools
    packsBySeat := source.packsBySeat
    event := source.event
    connectedSeats :=
      if source.connectedSeats = [] then fresh.connectedSeats else source.connectedSeats
    status := source.status
    currentPackNumber := source.currentPackNumber
    passDirection := source.passDirection }

/-- A live draft goes on; one that is over counts every round as exhausted. -/
def carryOn (source : DraftSession) (context : LegacyUpgradeContext) (carried : DraftSession)
    (fifo : FifoDraftState) (active : Bool) : Except DraftError DraftSession :=
  if active then upgradeActive source context carried fifo
  else .ok { carried with currentPackNumber := source.config.packCount, fifo := some fifo }

def upgradeStarted (source : DraftSession) (context : LegacyUpgradeContext)
    (fresh : DraftSession) : Except DraftError DraftSession := do
  let inventory ← takeInventory (physicalCards source) ∅
  let provenance ← legacyProvenance source context inventory
  let fifo ← fresh.fifoRef
  let fifo ← recordProvenance inventory provenance fifo
  refuseIf (fifo.cards.entries.length ≠ inventory.entries.length) "legacy evidence omits card"
  let packSizes ← originalSizes source fifo
  refuseIf (source.packSizes ≠ [] && source.packSizes ≠ packSizes)
    "legacy size evidence contradicts snapshot"
  refuseIf (!isChaos source && fifo.packs.entries.any fun entry =>
    entry.2.originalSize ≠ source.cardsInPack entry.2.round)
    "legacy original size contradicts uniform source"
  let active ← isActive source context.paused
  refuseIf (!active && ownsLivePacks source) "legacy postdraft still owns live packs"
  let progress ← legacyProgress source context inventory active
  refuseIf (source.seatsPickedThisRound = [] && active && (source.pickNumber ≠ 0 ||
    source.currentPackNumber ≠ 0 || source.pools.any fun pool => !pool.isEmpty))
    "missing legacy bitmap is ambiguous"
  let seats ← recordProgress source inventory (context.progress.isNone && active) 0 progress
    fifo.seats
  let fifo := { fifo with seats, lastNowMs := context.nowMs }
  let carried := carryOver source fresh packSizes
  let upgraded ← carryOn source context carried fifo active
  validatePersistedSnapshot upgraded
  pure upgraded

/-- A session that has not started has nothing to carry over. -/
def upgradeLobby (source : DraftSession) (context : LegacyUpgradeContext)
    (fresh : DraftSession) : Except DraftError DraftSession := do
  refuseIf (source.pools.any (fun pool => !pool.isEmpty) ||
    source.currentPack.any Option.isSome || source.packsBySeat.any (fun packs => !packs.isEmpty) ||
    source.pickNumber ≠ 0 || source.currentPackNumber ≠ 0 || source.packSizes ≠ [])
    "legacy Lobby contains generated cards"
  let fifo ← fresh.fifoRef
  let upgraded := { fresh with
    connectedSeats :=
      if source.connectedSeats = [] then fresh.connectedSeats else source.connectedSeats
    fifo := some { fifo with lastNowMs := context.nowMs } }
  validatePersistedSnapshot upgraded
  pure upgraded

def upgradeFresh (source : DraftSession) (context : LegacyUpgradeContext)
    (fresh : DraftSession) : Except DraftError DraftSession :=
  if source.status = .lobby then upgradeLobby source context fresh
  else upgradeStarted source context fresh

/-- `upgrade_legacy_snapshot` for a kind that picks and passes. -/
def upgradeLegacySnapshot (source : LegacySession) (context : LegacyUpgradeContext) :
    Except DraftError LegacySession := do
  let session := source.toDraftSession
  validatePersistedSnapshot session
  if session.config.flow = .fifoAsync then return source
  validateFifoConfig session.config session.seats.length .fifoSnapshot
  context.clockPolicy.validate
  if maxDraftJsonInteger < context.nowMs then throw .invalidClockBounds
  if session.status ≠ .paused ∧ context.paused.isSome = true then
    throw (snapshotError "legacy paused evidence/status mismatch")
  refuseIf (wrongDimensions session) "legacy per-seat dimensions"
  let config := { session.config with flow := .fifoAsync, clockPolicy := context.clockPolicy }
  let fresh ← newFifo config session.seats context.sessionId
  let upgraded ← upgradeFresh session context fresh
  pure { toDraftSession := upgraded, sharedStack := none, boosterPackPool := source.boosterPackPool }

end Phase.Draft.Legacy
