import Mathlib.Data.List.Destutter
import Phase.Draft.PoolGroups
import Phase.Draft.SharedStack
import Phase.Draft.Standings

/-! What a seat and a spectator are shown of a session. -/
namespace Phase.Draft

inductive PodPolicy where
  | competitive
  | casual
  deriving DecidableEq

inductive SpectatorVisibility where
  | publicOnly
  | omniscient
  deriving DecidableEq

inductive DeckAddableCardPolicy where
  | standardBasics
  | customOnly
  | standardBasicsPlusCustom
  deriving DecidableEq

structure DeckAddableCards where
  policy : DeckAddableCardPolicy
  custom : List String
  deriving DecidableEq

def standardBasicLands : List String :=
  ["Plains", "Island", "Swamp", "Mountain", "Forest", "Wastes", "Snow-Covered Plains",
    "Snow-Covered Island", "Snow-Covered Swamp", "Snow-Covered Mountain", "Snow-Covered Forest"]

def DeckAddableCards.displayNames (cards : DeckAddableCards) : List String :=
  let names := match cards.policy with
    | .standardBasics => standardBasicLands
    | .customOnly => cards.custom
    | .standardBasicsPlusCustom => standardBasicLands ++ cards.custom
  (names.insertionSort (· ≤ ·)).destutter (· ≠ ·)

/-- A session with what its configuration adds for the table as a whole. -/
structure PodSession extends StackSession where
  rngSeed : Nat
  addableCards : DeckAddableCards
  podPolicy : PodPolicy
  deriving DecidableEq

inductive PickSelectionMode where
  | direct
  | ordered
  deriving DecidableEq

inductive DraftLaunchCapability where
  | none
  | commanderMultiplayer
  deriving DecidableEq

inductive MatchType where
  | bo1
  | bo3
  deriving DecidableEq

inductive LoopDetectionMode where
  | off
  | on
  | interactive
  deriving DecidableEq

structure MatchConfig where
  matchType : MatchType
  loopDetection : LoopDetectionMode := .off
  deriving DecidableEq

namespace DraftKind

def pickSelectionMode : DraftKind → PickSelectionMode
  | .commanderDraft => .ordered
  | .quick | .premier | .traditional | .sealed | .winston => .direct

def commandersRequired : DraftKind → Nat
  | .commanderDraft => 1
  | .quick | .premier | .traditional | .sealed | .winston => 0

def matchConfig : DraftKind → MatchConfig
  | .traditional => { matchType := .bo3 }
  | .quick | .premier | .sealed | .commanderDraft | .winston => { matchType := .bo1 }

def launchCapability (kind : DraftKind) : DraftLaunchCapability :=
  match kind.procedure.postDraftPlay, kind.commandersRequired with
  | .completeImmediately, _ + 1 => .commanderMultiplayer
  | _, 0 => .none
  | .tournamentPairings, _ + 1 => .none

end DraftKind

/-- `div_ceil`. -/
def DraftProcedure.pickStepsPerPack (procedure : DraftProcedure) (cardsPerPack : Nat) : Nat :=
  (cardsPerPack + procedure.cardsPerPick - 1) / procedure.cardsPerPick

def SetLayout.setCodeForSeatAndPack (layout : SetLayout) (seat packNumber : Nat) : Option String :=
  match layout with
  | .uniformByRound codes => entryForPack codes packNumber
  | .chaos _ assignments => (assignments[seat]?).bind (·[packNumber]?)

def DraftSource.setCodeForPack (source : DraftSource) (packNumber : Nat) : String :=
  match source with
  | .set layout => (layout.setCodeForSeatAndPack 0 packNumber).getD ""
  | .cube id _ => id

namespace DraftSession

def cardsInPack (session : DraftSession) (packNumber : Nat) : Nat :=
  (entryForPack session.packSizes packNumber).getD session.config.cardsPerPack

def packSizeSequence (session : DraftSession) : List Nat :=
  (List.range session.config.packCount).map session.cardsInPack

def packSetCodeSequence (session : DraftSession) : List String :=
  (List.range session.config.packCount).map session.config.source.setCodeForPack

def packPickStepSequence (session : DraftSession) : List Nat :=
  (List.range session.config.packCount).map fun pack =>
    session.kind.procedure.pickStepsPerPack (session.cardsInPack pack)

end DraftSession

structure GrantableCommanderFiller where
  cardName : String
  maxCopies : Nat
  deriving DecidableEq

structure DraftSetConcessions where
  fillers : List GrantableCommanderFiller := []
  partnerGrant : Option Nat := none
  deriving DecidableEq

/-- A set code, the filler it grants, and the colors of its partner grant. -/
def draftSetConcessionRows : List (String × String × Option Nat) :=
  [("CMR", "The Prismatic Piper", none), ("CMM", "The Prismatic Piper", some 1),
    ("CLB", "Faceless One", none)]

def grantableFillerMaxCopies : Nat := 2

namespace DraftSetConcessions

def ofRow (row : String × String × Option Nat) : DraftSetConcessions where
  fillers := [⟨row.2.1, grantableFillerMaxCopies⟩]
  partnerGrant := row.2.2

def addFiller (fillers : List GrantableCommanderFiller) (filler : GrantableCommanderFiller) :
    List GrantableCommanderFiller :=
  match fillers.findIdx? fun held => held.cardName = filler.cardName with
  | some i => fillers.modify i fun held =>
    { held with maxCopies := max held.maxCopies filler.maxCopies }
  | none => fillers ++ [filler]

def union (held added : DraftSetConcessions) : DraftSetConcessions where
  fillers := added.fillers.foldl addFiller held.fillers
  partnerGrant :=
    match held.partnerGrant, added.partnerGrant with
    | some a, some b => some (max a b)
    | a, b => a.or b

end DraftSetConcessions

def draftSetConcessionsFor (setCodes : List String) : DraftSetConcessions :=
  ((draftSetConcessionRows.filter fun row => setCodes.any fun named =>
    eqIgnoreAsciiCase named row.1).map .ofRow).foldl .union {}

def concessionSetCodes (session : DraftSession) : List String :=
  match session.kind with
  | .commanderDraft =>
    match session.config.source with
    | .set layout => layout.actualSetCodes
    | .cube .. => []
  | .quick | .premier | .traditional | .sealed | .winston => []

def sessionConcessions (session : DraftSession) : DraftSetConcessions :=
  draftSetConcessionsFor (concessionSetCodes session)

structure FifoProgressView where
  completedSteps : Nat
  roundCompletedSteps : Nat
  deriving DecidableEq

structure FifoPublicView where
  sessionId : String
  revision : Nat
  paused : Option DraftPausedState
  reviewClock : Option DraftClock
  deriving DecidableEq

structure FifoHeadView where
  packId : DraftPackId
  openingSeat : Nat
  round : Nat
  originalSize : Nat
  deriving DecidableEq

structure FifoEffectOptions where
  cardInstanceIds : List String
  requirements : List DraftSelectionRequirements
  deriving DecidableEq

structure FifoPlayerView where
  state : FifoPublicView
  progress : FifoProgressView
  queueCount : Nat
  head : Option FifoHeadView
  promptId : Option DraftPromptId
  requirements : DraftSelectionRequirements
  effects : Option FifoEffectOptions
  clock : Option DraftClock
  deriving DecidableEq

def FifoDraftState.publicView (fifo : FifoDraftState) : FifoPublicView where
  sessionId := fifo.sessionId
  revision := fifo.revision
  paused := fifo.paused
  reviewClock := fifo.review.map (·.clock)

def fifoPublicView (session : DraftSession) : Option FifoPublicView :=
  session.fifo.map FifoDraftState.publicView

def fifoSeat (session : DraftSession) (seat : Nat) : Option FifoSeatState :=
  session.fifo.bind fun fifo => fifo.seats[seat]?

def FifoSeatState.progressView (state : FifoSeatState) : FifoProgressView :=
  ⟨state.completedSteps, state.roundCompletedSteps⟩

def fifoProgressView (session : DraftSession) (seat : Nat) : Option FifoProgressView :=
  (fifoSeat session seat).map FifoSeatState.progressView

/-- `map_while`. -/
def mapWhile {α β : Type} (f : α → Option β) : List α → List β
  | [] => []
  | a :: as =>
    match f a with
    | some b => b :: mapWhile f as
    | none => []

/-- The draft-effect cards that may be used on the head, and what using the first one, two and
so on of them requires. -/
def fifoEffectOptions (session : DraftSession) (seat : Nat) : Option FifoEffectOptions := do
  let pool ← session.pools[seat]?
  let cardInstanceIds := (pool.filter fun card =>
    (selectionRequirements session seat [card.instanceId]).isOk).map (·.instanceId)
  let requirements := mapWhile (fun last =>
    (selectionRequirements session seat (cardInstanceIds.take (last + 1))).toOption)
    (List.range cardInstanceIds.length)
  if requirements.isEmpty then none else some { cardInstanceIds, requirements }

def fifoPlayerView (session : DraftSession) (seatIndex : Nat) : Option FifoPlayerView := do
  let seat ← fifoSeat session seatIndex
  let active := session.status = .drafting
  let requirements := if active then
    ((selectionRequirements session seatIndex []).toOption).getD ⟨0, 0⟩ else ⟨0, 0⟩
  let effects := if active then fifoEffectOptions session seatIndex else none
  pure {
    state := ← fifoPublicView session
    progress := ← fifoProgressView session seatIndex
    queueCount := seat.queue.length
    head := (session.headMetadata seatIndex).map fun head =>
      { packId := head.packId, openingSeat := head.openingSeat, round := head.round,
        originalSize := head.originalSize }
    promptId := if active then seat.prompt.map (·.id) else none
    requirements, effects
    clock := seat.prompt.bind (·.clock) }

/-- `none` where a queue that no session can hold stops the program. -/
def activePackCount (session : DraftSession) (seat : Nat) : Option Nat :=
  match session.config.flow with
  | .fifoAsync =>
    let count := ((fifoSeat session seat).map fun state => state.queue.length).getD 0
    if count < 256 then some count else none
  | .legacyBarrier =>
    some (if session.status = .drafting ∧
        (session.headPack seat).any (fun pack => !pack.isEmpty) ∧
        session.seatsPickedThisRound.getD seat false = false then 1 else 0)

def isChaos : DraftSource → Bool
  | .set (.chaos ..) => true
  | .set (.uniformByRound _) | .cube .. => false

def privateChaosSizes (session : DraftSession) : Bool :=
  session.config.flow = .fifoAsync && isChaos session.config.source

def visiblePackSize (session : DraftSession) (seat : Option Nat) : Nat :=
  match session.config.flow, seat with
  | .legacyBarrier, _ => session.cardsInPack session.currentPackNumber
  | .fifoAsync, some seat => ((session.headMetadata seat).map (·.originalSize)).getD 0
  | .fifoAsync, none =>
    if privateChaosSizes session then 0 else session.cardsInPack session.currentPackNumber

inductive SetLayoutView where
  | uniformByRound (codes : List String)
  | chaos (candidateCodes : List String) (currentPackCode : Option String)
      (completedOwnPackCodes actualSetCodes : Option (List String))
  deriving DecidableEq

inductive DraftSourceView where
  | set (layout : SetLayoutView)
  | cube (id name : String)
  deriving DecidableEq

def chaosAssignmentsAreComplete : DraftStatus → Bool
  | .deckbuilding | .pairing | .matchInProgress | .roundComplete | .complete => true
  | .lobby | .drafting | .review | .paused | .abandoned => false

def setSourceViewForPlayer (layout : SetLayout) (status : DraftStatus) (seatIndex : Nat)
    (currentPackNumber : Nat) (currentPackOrigin : Option Nat) : SetLayoutView :=
  match layout with
  | .uniformByRound codes => .uniformByRound codes
  | .chaos candidateCodes assignments =>
    let complete := chaosAssignmentsAreComplete status
    .chaos candidateCodes
      (if status = .drafting then currentPackOrigin.bind fun origin =>
        (assignments[origin]?).bind (·[currentPackNumber]?) else none)
      (if complete then assignments[seatIndex]? else none)
      (if complete then some layout.actualSetCodes else none)

/-- The opening seat of the pack that a seat looks at. -/
def currentPackOrigin (session : DraftSession) (seatIndex : Nat) : Option Nat :=
  match session.config.flow with
  | .fifoAsync => (session.headMetadata seatIndex).map (·.openingSeat)
  | .legacyBarrier =>
    if ((session.currentPack[seatIndex]?).join).any (fun pack => !pack.isEmpty) then
      (session.currentPackOrigins[seatIndex]?).join
    else none

/-- A FIFO draft that is paused while drafting still shows its heads. -/
def visibleStatus (session : DraftSession) : DraftStatus :=
  if session.config.flow = .fifoAsync ∧
      (session.fifo.bind (·.paused)).any (fun paused => paused.phase = .drafting) then .drafting
  else session.status

def sourceViewForPlayer (session : DraftSession) (seatIndex : Nat) : DraftSourceView :=
  match session.config.source with
  | .set layout => .set (setSourceViewForPlayer layout (visibleStatus session) seatIndex
      session.currentPackNumber (currentPackOrigin session seatIndex))
  | .cube id name => .cube id name

def sourceViewForSpectator (session : DraftSession) : DraftSourceView :=
  match session.config.source with
  | .set (.uniformByRound codes) => .set (.uniformByRound codes)
  | .set (.chaos candidateCodes _) => .set (.chaos candidateCodes none none none)
  | .cube id name => .cube id name

def visiblePackSetCodes (session : DraftSession) : List String :=
  if isChaos session.config.source then [] else session.packSetCodeSequence

def visibleChaosConcessions (session : DraftSession) : Bool :=
  !isChaos session.config.source || chaosAssignmentsAreComplete session.status

structure SharedStackDecisionView where
  decision : SharedStackPileDecision
  refusal : Option SharedStackRefusal
  deriving DecidableEq

structure SharedStackPileView where
  index : Nat
  total : Nat
  revealed : List DraftCardInstance
  legality : List SharedStackDecisionView
  deriving DecidableEq

structure SharedStackView where
  mainStackRemaining : Nat
  totalCards : Nat
  activeSeat : Nat
  activePile : Nat
  piles : List SharedStackPileView
  decisions : Nat
  history : List SharedStackDecisionRecord
  forcedDraw : Option DraftCardInstance
  deriving DecidableEq

/-- `as u8`. -/
def asU8 (n : Nat) : Nat := n % 256

/-- Of a pile, the active seat is shown the cards it has looked at. -/
def sharedStackPileView (state : SharedStackState) (viewerSeat : Option Nat)
    (pile : List DraftCardInstance) (i : Nat) : SharedStackPileView where
  index := asU8 i
  total := pile.length
  revealed :=
    if viewerSeat = some state.activeSeat then
      pile.take (min (state.inspected.getD i 0) pile.length)
    else []
  legality := SharedStackPileDecision.all.map fun decision =>
    { decision, refusal := refusalFor state state.activeSeat (asU8 i) decision }

def sharedStackView (state : SharedStackState) (viewerSeat : Option Nat) : SharedStackView where
  mainStackRemaining := state.mainStack.length
  totalCards := state.mainStack.length + (state.piles.map List.length).sum
  activeSeat := state.activeSeat
  activePile := state.cursor
  piles := state.piles.mapIdx fun i pile => sharedStackPileView state viewerSeat pile i
  decisions := state.decisions
  history := state.history
  forcedDraw := viewerSeat.bind fun seat => (state.forcedDraws[seat]?).join

def sharedStackViewFor (session : StackSession) (isDrafting : Bool) (viewerSeat : Option Nat) :
    Option SharedStackView :=
  session.sharedStack.bind fun state =>
    if isDrafting then some (sharedStackView state viewerSeat) else none

def playFirstChooser (session : StackSession) : Option Nat :=
  session.sharedStack.bind fun state =>
    if session.seats.length = 2 then some ((state.startingSeat + 1) % 2) else none

inductive PickStatus where
  | pending | picked | waiting | notDrafting
  deriving DecidableEq

def pickStatusFor (session : StackSession) (seatIndex : Nat) (isDrafting : Bool) : PickStatus :=
  if !isDrafting then .notDrafting
  else
    match session.kind.procedure.distribution with
    | .pickAndPass | .allAtOnce =>
      if (session.headPack (asU8 seatIndex)).isSome then .pending else .picked
    | .sharedStackPiles _ =>
      match session.sharedStack with
      | some state => if state.activeSeat = asU8 seatIndex then .pending else .waiting
      | none => .notDrafting

structure SeatPublicView where
  fifoProgress : Option FifoProgressView
  seatIndex : Nat
  displayName : String
  isBot : Bool
  connected : Bool
  hasSubmittedDeck : Bool
  pickStatus : PickStatus
  activePackCount : Nat
  draftedCardCount : Nat
  faceUpDraftCards : List DraftCardInstance
  deriving DecidableEq

structure StandingEntry where
  seatIndex : Nat
  displayName : String
  matchWins : Nat
  matchLosses : Nat
  gameWins : Nat
  gameLosses : Nat
  deriving DecidableEq

structure PairingView where
  round : Nat
  table : Nat
  seatA : Nat
  nameA : String
  seatB : Nat
  nameB : String
  matchId : String
  status : PairingStatus
  winnerSeat : Option Nat
  scoreA : Option Nat
  scoreB : Option Nat
  deriving DecidableEq

def DraftSeat.displayName : DraftSeat → String
  | .human _ displayName => displayName
  | .bot name => name

def DraftSeat.isBot : DraftSeat → Bool
  | .human .. => false
  | .bot _ => true

def faceUpDraftCards (pool : List DraftCardInstance) : List DraftCardInstance :=
  pool.filter fun card => card.draftEffect.isSome

/-- `none` where a seat without a pool stops the program. -/
def seatPublicView (session : StackSession) (isDrafting : Bool) (seat : DraftSeat) (i : Nat) :
    Option SeatPublicView := do
  let pool ← session.pools[i]?
  pure {
    fifoProgress := fifoProgressView session.toDraftSession i
    seatIndex := asU8 i
    displayName := seat.displayName
    isBot := seat.isBot
    connected := match seat with
      | .human .. => session.connectedSeats.getD (asU8 i) true
      | .bot _ => true
    hasSubmittedDeck := match seat with
      | .human playerId _ => (session.event.submittedDecks.lookup playerId).isSome
      | .bot _ => false
    pickStatus := pickStatusFor session i isDrafting
    activePackCount := ← activePackCount session.toDraftSession (asU8 i)
    draftedCardCount := pool.length
    faceUpDraftCards := faceUpDraftCards pool }

def seatPublicViews (session : StackSession) : Option (List SeatPublicView) :=
  session.seats.zipIdx.mapM fun (seat, i) =>
    seatPublicView session (session.status = .drafting) seat i

def computeStandings (session : DraftSession) : List StandingEntry :=
  if session.event.pairings.isEmpty then []
  else
    (session.seats.mapIdx fun i seat =>
      let player := match seat with
        | .human playerId _ => playerId
        | .bot _ => asU8 i
      let record := (session.event.matchRecords.lookup player).getD (Event.emptyRecord player)
      { seatIndex := asU8 i, displayName := seat.displayName, matchWins := record.matchWins,
        matchLosses := record.matchLosses, gameWins := record.wins, gameLosses := record.losses
        : StandingEntry }).insertionSort fun a b => b.matchWins ≤ a.matchWins

/-- The seat and the name of a player; of two seats of one player, those of the later one. -/
def playerSeat (session : DraftSession) (player : Nat) : Nat × String :=
  let seated := session.seats.mapIdx fun i seat =>
    (match seat with
      | .human playerId _ => playerId
      | .bot _ => asU8 i, asU8 i, seat.displayName)
  ((seated.reverse.find? fun entry => entry.1 = player).map Prod.snd).getD (0, "Unknown")

def pairingView (session : DraftSession) (pairing : DraftPairing) : PairingView :=
  let a := playerSeat session pairing.players.1
  let b := playerSeat session pairing.players.2
  { round := pairing.round, table := pairing.table, seatA := a.1, nameA := a.2, seatB := b.1,
    nameB := b.2, matchId := pairing.matchId, status := pairing.status
    winnerSeat := (Event.resultWinner pairing session.event.matchRecords).bind fun winner =>
      if winner = pairing.players.1 then some a.1
      else if winner = pairing.players.2 then some b.1
      else none
    scoreA := none, scoreB := none }

def computePairingViews (session : DraftSession) : List PairingView :=
  if session.event.currentRound = 0 then []
  else (session.event.pairings.filter fun pairing =>
    pairing.round = session.event.currentRound).map (pairingView session)

structure DraftPlayerView where
  flow : DraftFlow
  fifo : Option FifoPlayerView
  status : DraftStatus
  kind : DraftKind
  source : DraftSourceView
  launchCapability : DraftLaunchCapability
  distribution : PackDistribution
  commandersRequired : Nat
  currentPackNumber : Nat
  pickNumber : Nat
  passDirection : PassDirection
  currentPack : Option DraftPack
  requiredPickCount : Nat
  pickSelectionMode : PickSelectionMode
  pool : List DraftCardInstance
  draftEffects : List DraftCardInstance
  poolGroups : DraftPoolGroups
  sealedPacks : Option (List DraftPack)
  seats : List SeatPublicView
  cardsPerPack : Nat
  packSizes : List Nat
  packSetCodes : List String
  packPickSteps : List Nat
  pickStepsPerPack : Nat
  packCount : Nat
  minDeckSize : Nat
  addableCards : List String
  grantableCommanderFillers : List GrantableCommanderFiller
  draftSetCodes : List String
  timerRemainingMs : Option Nat
  standings : List StandingEntry
  currentRound : Nat
  nextPairingRound : Nat
  tournamentFormat : TournamentFormat
  podPolicy : PodPolicy
  pairings : List PairingView
  matchConfig : MatchConfig
  sharedStack : Option SharedStackView
  playFirstChooser : Option Nat
  deriving DecidableEq

structure SpectatorDraftView where
  flow : DraftFlow
  fifo : Option FifoPublicView
  status : DraftStatus
  kind : DraftKind
  source : DraftSourceView
  currentPackNumber : Nat
  pickNumber : Nat
  passDirection : PassDirection
  seats : List SeatPublicView
  cardsPerPack : Nat
  packSizes : List Nat
  packSetCodes : List String
  packPickSteps : List Nat
  pickStepsPerPack : Nat
  packCount : Nat
  minDeckSize : Nat
  addableCards : List String
  grantableCommanderFillers : List GrantableCommanderFiller
  standings : List StandingEntry
  currentRound : Nat
  tournamentFormat : TournamentFormat
  podPolicy : PodPolicy
  pairings : List PairingView
  matchConfig : MatchConfig
  pools : Option (List (List DraftCardInstance))
  currentPacks : Option (List (Option DraftPack))
  sharedStack : Option SharedStackView
  deriving DecidableEq

/-- A sealed pool as the boosters it was opened from; what is left is one more. -/
def splitByPackSize : List Nat → List DraftCardInstance → List DraftPack
  | _, [] => []
  | [], rest => [rest]
  | size :: sizes, rest => rest.take size :: splitByPackSize sizes (rest.drop size)

def visiblePackSizes (session : DraftSession) : List Nat :=
  if privateChaosSizes session then [] else session.packSizeSequence

def visiblePackPickSteps (session : DraftSession) : List Nat :=
  if privateChaosSizes session then [] else session.packPickStepSequence

/-- `none` where the program stops. -/
def filterForSpectator (session : PodSession) (visibility : SpectatorVisibility) :
    Option SpectatorDraftView := do
  let draft := session.toDraftSession
  let isDrafting := session.status = .drafting
  let seats ← seatPublicViews session.toStackSession
  let visible := visibility = .omniscient ∧ isChaos session.config.source = false
  pure {
    flow := session.config.flow
    fifo := fifoPublicView draft
    status := session.status
    kind := session.kind
    source := sourceViewForSpectator draft
    currentPackNumber := session.currentPackNumber
    pickNumber := session.pickNumber
    passDirection := session.passDirection
    seats
    cardsPerPack := visiblePackSize draft none
    packSizes := visiblePackSizes draft
    packSetCodes := visiblePackSetCodes draft
    packPickSteps := visiblePackPickSteps draft
    pickStepsPerPack := session.kind.procedure.pickStepsPerPack (visiblePackSize draft none)
    packCount := session.config.packCount
    minDeckSize := session.config.minDeckSize
    addableCards := session.addableCards.displayNames
    grantableCommanderFillers :=
      if isChaos session.config.source then [] else (sessionConcessions draft).fillers
    standings := computeStandings draft
    currentRound := session.event.currentRound
    tournamentFormat := session.config.tournamentFormat
    podPolicy := session.podPolicy
    pairings := computePairingViews draft
    matchConfig := session.kind.matchConfig
    pools := if visible then some session.pools else none
    currentPacks := if visible then some ((List.range session.seats.length).map fun seat =>
      if seat < 256 then session.headPack seat else none) else none
    sharedStack := sharedStackViewFor session.toStackSession isDrafting none }

/-- `none` where the program stops. -/
def filterForPlayer (session : PodSession) (seatIndex : Nat) : Option DraftPlayerView := do
  let draft := session.toDraftSession
  let isDrafting := session.status = .drafting
  let pool := session.pools.getD seatIndex []
  let seats ← seatPublicViews session.toStackSession
  pure {
    flow := session.config.flow
    fifo := fifoPlayerView draft seatIndex
    status := session.status
    kind := session.kind
    source := sourceViewForPlayer draft seatIndex
    launchCapability := session.kind.launchCapability
    distribution := session.kind.procedure.distribution
    commandersRequired := session.kind.commandersRequired
    currentPackNumber := session.currentPackNumber
    pickNumber := session.pickNumber
    passDirection := session.passDirection
    currentPack := (session.headPack seatIndex).map fun pack =>
      if session.config.source.isCube then pack else setPackInRarityOrder pack
    requiredPickCount :=
      if session.config.flow = .fifoAsync ∧ ¬isDrafting then 0
      else session.requiredPickCount seatIndex
    pickSelectionMode := session.kind.pickSelectionMode
    pool
    draftEffects := faceUpDraftCards pool
    poolGroups := .fromPool pool session.config.source
    sealedPacks := match session.kind.procedure.distribution with
      | .allAtOnce => some (splitByPackSize draft.packSizeSequence pool)
      | .pickAndPass | .sharedStackPiles _ => none
    seats
    cardsPerPack := visiblePackSize draft (some seatIndex)
    packSizes := visiblePackSizes draft
    packSetCodes := visiblePackSetCodes draft
    packPickSteps := visiblePackPickSteps draft
    pickStepsPerPack :=
      session.kind.procedure.pickStepsPerPack (visiblePackSize draft (some seatIndex))
    packCount := session.config.packCount
    minDeckSize := session.config.minDeckSize
    addableCards := session.addableCards.displayNames
    grantableCommanderFillers :=
      if visibleChaosConcessions draft then (sessionConcessions draft).fillers else []
    draftSetCodes := if visibleChaosConcessions draft then concessionSetCodes draft else []
    timerRemainingMs := none
    standings := computeStandings draft
    currentRound := session.event.currentRound
    nextPairingRound := asU8 (session.event.currentRound + 1)
    tournamentFormat := session.config.tournamentFormat
    podPolicy := session.podPolicy
    pairings := computePairingViews draft
    matchConfig := session.kind.matchConfig
    sharedStack := sharedStackViewFor session.toStackSession isDrafting (some seatIndex)
    playFirstChooser := playFirstChooser session.toStackSession }

end Phase.Draft
