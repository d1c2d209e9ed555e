import Phase.Draft.SharedStack
import Phase.Draft.Standings

/-! The reducer of the legacy flow. An action edits the session in place: a refusal leaves it
as far as the action got, and nothing but the code itself takes an edit back. -/
namespace Phase.Draft.Legacy

structure LegacySession extends StackSession where
  /-- What in-game pack openers draw from, latched from the pack source. -/
  boosterPackPool : Option (List String)
  deriving DecidableEq

/-- A refusal, or an index out of bounds or a missing value. -/
inductive Failure where
  | refused (error : DraftError)
  | panicked
  deriving DecidableEq

abbrev Reducer := EStateM Failure LegacySession

structure PackSource where
  boosterPackPool : Option (List String)
  generatePacks : DraftConfig → Nat → Except DraftError (List (List DraftPack))

/-- What an action is given besides the session: the pack source, what the seeded generators
make of a bracket and of the stack, and the verdict on a deck out of a pool. -/
structure Surroundings where
  packSource : Option PackSource
  shuffleBracket : Nat → Event.BracketShuffle
  shuffleStack : List DraftCardInstance → List DraftCardInstance
  startingSeat : Nat
  validateLimitedDeck : DraftSession → List String → List String → List String → Bool

inductive LegacyAction where
  | startDraft
  /-- `Select`, `Control` or `AdvanceClock`, whose contents this reducer does not read. -/
  | fifoOnly
  | pick (seat : Nat) (ids : List String)
  | pickWithDraftEffect (seat : Nat) (effectId : String) (ids : List String)
  | sharedStackDecision (seat pile : Nat) (decision : SharedStackPileDecision)
  | submitDeck (seat : Nat) (mainDeck commanders : List String)
  | generatePairings
  | reportMatchResult (matchId : String) (winnerSeat : Option Nat)
  | advanceRound
  | replaceSeatWithBot (seat : Nat) (name : Option String)
  | setSeatConnected (seat : Nat) (connected : Bool)
  deriving DecidableEq

section
variable {α : Type}

def refuse (error : DraftError) : Reducer α := throw (.refused error)

def refuseWhen (c : Prop) [Decidable c] (error : DraftError) : Reducer Unit :=
  if c then refuse error else pure ()

/-- The `?` operator. -/
def attempt : Except DraftError α → Reducer α
  | .ok a => pure a
  | .error error => refuse error

/-- `ok_or(error)?`. -/
def require (error : DraftError) : Option α → Reducer α
  | some a => pure a
  | none => refuse error

/-- `expect`. -/
def expect : Option α → Reducer α
  | some a => pure a
  | none => throw .panicked

/-- `xs[i]`. -/
def indexed (xs : List α) (i : Nat) : Reducer α := expect xs[i]?

end

def putEvent (event : EventRecord) : Reducer Unit :=
  modify fun session => { session with event }

def putStatus (status : DraftStatus) : Reducer Unit :=
  modify fun session => { session with status }

/-- `session.current_pack[seat] = Some(pack)`, once a pack has been found there. -/
def putPack (seat : Nat) (pack : DraftPack) : Reducer Unit :=
  modify fun session => { session with currentPack := session.currentPack.set seat (some pack) }

def putPool (seat : Nat) (pool : List DraftCardInstance) : Reducer Unit :=
  modify fun session => { session with pools := session.pools.set seat pool }

/-- Every check made before a pack is asked for. -/
def admitStart (session : LegacySession) : Except DraftError Unit := do
  if session.status ≠ .lobby then throw (.invalidTransition session.status "StartDraft")
  let procedure := session.kind.procedure
  validateLayout session.config session.seatCount
  match procedure.distribution with
  | .sharedStackPiles _ => validateSource session.config.source
  | .pickAndPass | .allAtOnce => pure ()
  session.kind.admitPodSize session.config.source session.config.tournamentFormat
    session.seatCount .configuration
  if procedure.distribution ≠ session.config.kind.procedure.distribution then
    throw (.invalidSealedConfiguration "session kind does not match configuration")
  match procedure.distribution with
  | .allAtOnce =>
    session.kind.admitAllAtOnce session.config (some session.setCode) .configuration
  | .sharedStackPiles pileCount =>
    let _ ← pilesNeeded pileCount
    if session.config.packCount ≠ procedure.packsPerPlayer ∨
        session.config.minDeckSize ≠ procedure.minDeckSize then
      throw (.invalidSharedStackConfiguration
        (s!"shared-stack drafts require {procedure.packsPerPlayer} packs per seat and a " ++
          s!"{procedure.minDeckSize}-card minimum deck"))
  | .pickAndPass => pure ()

/-- The booster pool is latched once the packs are there. -/
def generateStartPacks (source : PackSource) (seatCount : Nat) :
    Reducer (List (List DraftPack)) := do
  let packs ← attempt (source.generatePacks (← get).config seatCount)
  modify fun session => { session with boosterPackPool := source.boosterPackPool }
  pure packs

/-- The sizes of the first seat's boosters, each at most a byte's worth. -/
def recordedSizes (allPacks : List (List DraftPack)) : List Nat :=
  (allPacks.headD []).map fun pack => min pack.length 255

def dealsPerSeat (session : LegacySession) (packsPerSeat : Nat)
    (allPacks : List (List DraftPack)) : Bool :=
  allPacks.length = session.seats.length ∧ allPacks.all fun packs => packs.length = packsPerSeat

def dealAllAtOnce (packsPerSeat : Nat) (allPacks : List (List DraftPack)) :
    Reducer (List DraftDelta) := do
  let session ← get
  refuseWhen (dealsPerSeat session packsPerSeat allPacks = false)
    (.invalidSealedConfiguration "pack source did not generate six packs per seat")
  modify fun session => { session with
    pools := allPacks.map List.flatten
    currentPack := session.currentPack.map fun _ => none
    currentPackOrigins := session.currentPackOrigins.map fun _ => none
    packsBySeat := session.packsBySeat.map fun _ => []
    status := .deckbuilding }
  pure [.draftStarted, .transitionedTo .deckbuilding]

/-- Everything is shuffled into one stack; this arm assigns nothing before its last check. -/
def dealStack (around : Surroundings) (packsPerSeat pileCount : Nat)
    (allPacks : List (List DraftPack)) : Reducer (List DraftDelta) := do
  let session ← get
  let (dealt, deltas) ← attempt (dealSharedStack session.toStackSession packsPerSeat pileCount
    allPacks around.shuffleStack around.startingSeat)
  set { session with toStackSession := dealt }
  pure deltas

/-- The first booster goes in front of the seat, the rest wait. -/
def openBooster (seat : Nat) : List DraftPack → Reducer PUnit
  | [] => throw .panicked
  | first :: rest => do
      let session ← get
      if seat < session.currentPack.length ∧ seat < session.currentPackOrigins.length ∧
          seat < session.packsBySeat.length then
        set { session with
          currentPack := session.currentPack.set seat (some first)
          currentPackOrigins := session.currentPackOrigins.set seat (some (seat % 256))
          packsBySeat := session.packsBySeat.set seat rest }
      else throw .panicked

def dealToPass (allPacks : List (List DraftPack)) : Reducer (List DraftDelta) := do
  modify fun session => { session with
    currentPackOrigins := resize session.currentPackOrigins session.seatCount none }
  allPacks.zipIdx.forM fun (packs, seat) => openBooster seat packs
  modify fun session => { session with
    status := .drafting
    passDirection := PassDirection.forPack 0
    currentPackNumber := 0
    pickNumber := 0
    seatsPickedThisRound := List.replicate session.seatCount false }
  pure [.draftStarted]

def deal (around : Surroundings) (procedure : DraftProcedure) (allPacks : List (List DraftPack)) :
    Reducer (List DraftDelta) :=
  match procedure.distribution with
  | .allAtOnce => dealAllAtOnce procedure.packsPerPlayer allPacks
  | .sharedStackPiles pileCount => dealStack around procedure.packsPerPlayer pileCount allPacks
  | .pickAndPass => dealToPass allPacks

def applyStartDraft (around : Surroundings) : Reducer (List DraftDelta) := do
  let session ← get
  attempt (admitStart session)
  let source ← expect around.packSource
  let allPacks ← generateStartPacks source session.seatCount
  -- the only moment at which the sizes can be seen
  modify fun session => { session with packSizes := recordedSizes allPacks }
  deal around session.kind.procedure allPacks

/-- The checks every pick makes before it looks at cards. The bitmaps of an old save are
padded on the way. -/
def openPick (seat : Nat) (action : String) : Reducer Unit := do
  let session ← get
  refuseWhen (session.status ≠ .drafting) (.invalidTransition session.status action)
  refuseWhen (session.seatCount ≤ seat) (.seatOutOfRange seat session.seatCount)
  modify fun session => { session with
    seatsPickedThisRound := ensureLen session.seatsPickedThisRound session.seatCount false
    connectedSeats := ensureLen session.connectedSeats session.seatCount true }
  let padded ← get
  refuseWhen (padded.seatsPickedThisRound.getD seat false = true) (.seatAlreadyPickedThisRound seat)

/-- `finish_pick`, which refuses nothing. -/
def settlePick (seat : Nat) (ids : List String) : Reducer (List DraftDelta) := do
  let session ← get
  let (next, deltas) := finishPick session.toDraftSession seat ids
  set { session with toDraftSession := next }
  pure deltas

def applyPick (seat : Nat) (ids : List String) : Reducer (List DraftDelta) := do
  attempt (validateLegacyAdmission (← get).toDraftSession)
  openPick seat "Pick"
  let session ← get
  let pack := (← indexed session.currentPack seat).getD []
  refuseWhen (pack = []) (.noPendingPack seat)
  refuseWhen (ids.length ≠ session.requiredPickCount seat)
    (.wrongPickCardCount seat (session.requiredPickCount seat) ids.length)
  -- every id is resolved before anything is removed
  let indices ← attempt (resolveIndices seat pack ids [])
  let (left, picked) := takeIndices pack indices
  putPack seat left
  let pool ← indexed session.pools seat
  putPool seat (pool ++ picked)
  settlePick seat ids

/-- Two cards for an effect card, which goes back into the booster. -/
def applyPickWithDraftEffect (seat : Nat) (effectId : String) (ids : List String) :
    Reducer (List DraftDelta) := do
  attempt (validateLegacyAdmission (← get).toDraftSession)
  refuseWhen (ids.length ≠ 2) (.invalidDraftEffectSelection 2 ids.length)
  openPick seat "PickWithDraftEffect"
  let session ← get
  refuseWhen (ids[0]? = ids[1]?) (.invalidDraftEffectSelection 2 1)
  let pool ← indexed session.pools seat
  let effectIndex ← require (.draftEffectCardNotInPool effectId)
    (pool.findIdx? (isEffectCard effectId))
  let pack ← require (.noPendingPack seat) (← indexed session.currentPack seat)
  match ids.find? fun id => !(pack.any fun card => card.instanceId = id) with
  | some missing => refuse (.cardNotInPack missing)
  | none =>
    let (left, picked) := takeByIds pack ids
    putPack seat left
    putPool seat (pool.eraseIdx effectIndex ++ picked)
    putPack seat (left ++ pool[effectIndex]?.toList)
    settlePick seat ids

/-- The decision edits a session of its own, and that is the session it leaves. -/
def applySharedStackDecision (seat pile : Nat) (decision : SharedStackPileDecision) :
    Reducer (List DraftDelta) := do
  let session ← get
  let (next, result) := Draft.applySharedStackDecision session.toStackSession seat pile decision
  set { session with toStackSession := next }
  attempt result

def maxCommanderDesignations : Nat := 2

def isHuman : DraftSeat → Bool
  | .human .. => true
  | .bot _ => false

/-- Whether every human seat has a deck on record. -/
def allSubmitted (session : DraftSession) : Bool :=
  let submitted := session.seats.countP fun
    | .human playerId _ => (session.event.submittedDecks.lookup playerId).isSome
    | .bot _ => false
  session.seats.countP isHuman ≤ submitted

def nextStatus : PostDraftPlay → DraftStatus
  | .completeImmediately => .complete
  | .tournamentPairings => .pairing

def applySubmitDeck (around : Surroundings) (seat : Nat) (mainDeck commanders : List String) :
    Reducer (List DraftDelta) := do
  let session ← get
  refuseWhen (session.status ≠ .deckbuilding) (.invalidTransition session.status "SubmitDeck")
  refuseWhen (session.seatCount ≤ seat) (.seatOutOfRange seat session.seatCount)
  refuseWhen (maxCommanderDesignations < commanders.length) .validationFailed
  let pool ← indexed session.pools seat
  refuseWhen (around.validateLimitedDeck session.toDraftSession mainDeck
    (pool.map (·.name)) commanders = false) .validationFailed
  let playerId := Event.seatPlayerId session.toDraftSession seat
  putEvent { session.event with
    submittedDecks := session.event.submittedDecks.insert playerId ⟨seat, mainDeck, commanders⟩ }
  let submitted ← get
  if allSubmitted submitted.toDraftSession then
    let status := nextStatus submitted.kind.procedure.postDraftPlay
    putStatus status
    pure [.deckSubmitted seat, .transitionedTo status]
  else pure [.deckSubmitted seat]

def applyGeneratePairings (around : Surroundings) : Reducer (List DraftDelta) := do
  let session ← get
  let procedure := session.kind.procedure
  let format := session.config.tournamentFormat
  refuseWhen (session.status ≠ .deckbuilding ∧ session.status ≠ .pairing ∧
    session.status ≠ .roundComplete) (.invalidTransition session.status "GeneratePairings")
  refuseWhen (procedure.postDraftPlay ≠ .tournamentPairings)
    (.invalidTransition session.status "GeneratePairings")
  refuseWhen (procedure.allowsPodSize format session.seatCount = false)
    (.unsupportedTournamentSize format (procedure.allowedPodSizeStart format) session.seatCount)
  let round := Event.nextPairingRound session.toDraftSession
  let (newPairings, swissBye) := Event.roundPairings session.toDraftSession around.shuffleBracket
  putEvent { session.event with pairings := session.event.pairings ++ newPairings }
  let paired ← get
  putEvent { paired.event with
    matchRecords := Event.creditBye paired.event.matchRecords swissBye }
  putStatus .matchInProgress
  let credited ← get
  putEvent { credited.event with currentRound := round }
  pure [.pairingsGenerated round, .transitionedTo .matchInProgress]

def applyReportMatchResult (matchId : String) (winnerSeat : Option Nat) :
    Reducer (List DraftDelta) := do
  let session ← get
  refuseWhen (session.status ≠ .matchInProgress ∧ session.status ≠ .roundComplete)
    (.invalidTransition session.status "ReportMatchResult")
  let index ← require (.pairingNotFound matchId)
    (session.event.pairings.findIdx? fun pairing => pairing.matchId = matchId)
  let pairing ← indexed session.event.pairings index
  refuseWhen (pairing.round ≠ session.event.currentRound)
    (.pairingNotInCurrentRound matchId session.event.currentRound)
  refuseWhen (session.config.tournamentFormat = .singleElimination ∧ winnerSeat = none)
    (.matchWinnerRequired matchId)
  let winner ← attempt (Event.reportedWinner session.toDraftSession pairing matchId winnerSeat)
  putEvent (Event.settlePairing session.event index pairing winner)
  let settled ← get
  let (next, deltas) := Event.afterReport settled.toDraftSession
  putStatus next.status
  pure (.matchResultRecorded matchId winnerSeat :: deltas)

def applyAdvanceRound : Reducer (List DraftDelta) := do
  let session ← get
  refuseWhen (session.status ≠ .roundComplete) (.invalidTransition session.status "AdvanceRound")
  putStatus .pairing
  pure [.roundAdvanced (Event.nextPairingRound session.toDraftSession)]

def applyReplaceSeatWithBot (seat : Nat) (name : Option String) : Reducer (List DraftDelta) := do
  let session ← get
  refuseWhen (session.seatCount ≤ seat) (.seatOutOfRange seat session.seatCount)
  modify fun session => { session with
    seats := session.seats.set seat (.bot (name.getD s!"Seat {seat + 1}")) }
  pure [.seatReplacedWithBot seat]

def applySetSeatConnected (seat : Nat) (connected : Bool) : Reducer (List DraftDelta) := do
  let session ← get
  refuseWhen (session.seatCount ≤ seat) (.seatOutOfRange seat session.seatCount)
  match ← indexed session.seats seat with
  | .bot _ => refuse (.seatIsBot seat)
  | .human .. =>
    modify fun session => { session with
      connectedSeats := ensureLen session.connectedSeats session.seatCount true }
    modify fun session => { session with
      connectedSeats := session.connectedSeats.set seat connected }
    pure [.seatConnectionChanged seat connected]

def applyExisting (around : Surroundings) : LegacyAction → Reducer (List DraftDelta)
  | .fifoOnly => refuse .incompatibleFlow
  | .startDraft => applyStartDraft around
  | .pick seat ids => applyPick seat ids
  | .pickWithDraftEffect seat effectId ids => applyPickWithDraftEffect seat effectId ids
  | .sharedStackDecision seat pile decision => applySharedStackDecision seat pile decision
  | .submitDeck seat mainDeck commanders => applySubmitDeck around seat mainDeck commanders
  | .generatePairings => applyGeneratePairings around
  | .reportMatchResult matchId winnerSeat => applyReportMatchResult matchId winnerSeat
  | .advanceRound => applyAdvanceRound
  | .replaceSeatWithBot seat name => applyReplaceSeatWithBot seat name
  | .setSeatConnected seat connected => applySetSeatConnected seat connected

def apply (around : Surroundings) (action : LegacyAction) : Reducer (List DraftDelta) := do
  let session ← get
  refuseWhen (session.config.flow = .fifoAsync) .explicitTimeRequired
  attempt (validateLegacyAdmission session.toDraftSession)
  refuseWhen (action = .fifoOnly) .incompatibleFlow
  applyExisting around action

end Phase.Draft.Legacy
